import BinlogCdc.Sync.PageRules

/-!
# What a chunk does

The rule of a chunk, in terms of the rows of the source and the target: which keys its
phase selects, how far the cursor moves and what is counted. A window selects keys after
the cursor and up to its last source row; the tail selects the target rows of one page.
-/

namespace BinlogCdc

/-! ## What a phase selects -/

/-- The phase changes the target at a key with these rows of the source and the target. -/
def selects (table : SyncTable) (phase : SyncMutationPhase) :
    Option DatabaseRow → Option DatabaseRow → Bool
  | none, none => false
  | none, some _ => phase.includes .deleteExtras
  | some _, none => phase.includes .insertMissing
  | some sourceRow, some targetRow =>
    phase.includes .updateDivergent && rowsDiverge table sourceRow targetRow

theorem mem_indexRows {rows : List DatabaseRow} {row : DatabaseRow} :
    row ∈ indexRows rows ↔ row ∈ rows :=
  (List.perm_insertionSort _ rows).mem_iff

theorem hasKey_indexRows (rows : List DatabaseRow) (key : PrimaryKey) :
    hasKey (indexRows rows) key = hasKey rows key := by
  rw [Bool.eq_iff_iff, hasKey_eq_true, hasKey_eq_true]
  simp only [mem_indexRows]

section Steps

variable [LinearOrder PrimaryKey]

/-- The keys that a phase changes between two bounds. -/
def windowKeys (table : SyncTable) (phase : SyncMutationPhase) (source target : SyncRows)
    (after upto : Option PrimaryKey) (key : PrimaryKey) : Prop :=
  KeyedTable.InWindow after upto key ∧
    selects table phase (source.find key) (target.find key) = true

/-- The source rows between two bounds that the target does not have. -/
def missingRows (source target : SyncRows) (after upto : Option PrimaryKey) : List DatabaseRow :=
  (source.select after upto).filter fun row => (target.find row.primaryKey).isNone

/-- The source rows between two bounds that diverge from their target rows. -/
def divergentRows (table : SyncTable) (source target : SyncRows) (after upto : Option PrimaryKey) :
    List DatabaseRow :=
  (source.select after upto).filter fun row =>
    (target.find row.primaryKey).any (rowsDiverge table row)

/-- The target rows between two bounds that the source does not have. -/
def extraRows (source target : SyncRows) (after upto : Option PrimaryKey) : List DatabaseRow :=
  (target.select after upto).filter fun row => (source.find row.primaryKey).isNone

/-- A count of a phase. -/
def countIf (phase operation : SyncMutationPhase) (rows : List DatabaseRow) : Nat :=
  if phase.includes operation then rows.length else 0

/-- The progress after a window that ends at a key. -/
def windowProgress (config : SyncChunkConfig) (phase : SyncMutationPhase) (source target : SyncRows)
    (progress : SyncChunkProgress) (endAt : PrimaryKey) : SyncChunkProgress :=
  let after := progress.lastPrimaryKey
  { progress with
    lastPrimaryKey := some endAt
    complete := false
    chunks := progress.chunks + 1
    rowsScanned := progress.rowsScanned + (source.select after (some endAt)).length
    inserts := progress.inserts +
      countIf phase .insertMissing (missingRows source target after (some endAt))
    updates := progress.updates +
      countIf phase .updateDivergent (divergentRows config.table source target after (some endAt))
    deletes := progress.deletes +
      countIf phase .deleteExtras (extraRows source target after (some endAt)) }

/-- The progress after a page of the tail. -/
def tailProgress (phase : SyncMutationPhase) (progress : SyncChunkProgress) (page : SyncChunkPage) :
    SyncChunkProgress :=
  { progress with
    complete := !page.hasMore
    chunks := progress.chunks + 1
    deletes := progress.deletes + countIf phase .deleteExtras page.rows
    lastPrimaryKey :=
      if phase.includes .deleteExtras then progress.lastPrimaryKey
      else (page.rows.getLast?.map DatabaseRow.primaryKey).or progress.lastPrimaryKey }

/-- The keys of a page that the phase deletes. -/
def tailKeys (phase : SyncMutationPhase) (page : SyncChunkPage) (key : PrimaryKey) : Prop :=
  phase.includes .deleteExtras = true ∧ key ∈ page.rows.map DatabaseRow.primaryKey

/-- A chunk: the next progress and the keys changed, from a progress and the rows of the target. -/
inductive ChunkStep (config : SyncChunkConfig) (source : SyncRows) (phase : SyncMutationPhase)
    (progress : SyncChunkProgress) (target : SyncRows) :
    SyncChunkProgress → (PrimaryKey → Prop) → Prop
  /-- A window of source rows that ends at a source row after the cursor. -/
  | window (last : DatabaseRow) (hlast : last ∈ source.select progress.lastPrimaryKey none) :
    ChunkStep config source phase progress target
      (windowProgress config phase source target progress last.primaryKey)
      (windowKeys config.table phase source target progress.lastPrimaryKey (some last.primaryKey))
  /-- A page of the target, when no source row is after the cursor. -/
  | tail (page : SyncChunkPage) (hsource : source.select progress.lastPrimaryKey none = [])
    (hpage : page.PageOf (target.select progress.lastPrimaryKey none)) :
    ChunkStep config source phase progress target (tailProgress phase progress page)
      (tailKeys phase page)

/-- The keys that may have moved: those of the chunk, and any key where the table has a secondary
unique index. -/
def orRepaired (world : SyncWorld) (keys : PrimaryKey → Prop) (key : PrimaryKey) : Prop :=
  keys key ∨ world.uniqueIndexes.indexes ≠ []

/-! ## Source changes -/

variable {world : SyncWorld} {config : SyncChunkConfig} {source : SyncRows}
  {phase : SyncMutationPhase} {s : SyncRuntime}

/-- The updates and inserts of a window are written. -/
theorem wp_applySourceChanges (phase : SyncMutationPhase) {changes : ChunkChanges} {Q : Unit → SyncRuntime → Prop}
    {R : SyncRuntime → Prop}
    (hupdates : MutationKind.update.Pending source s.working changes.updates)
    (hinserts : MutationKind.insert.Pending source s.working changes.inserts)
    (hupdatePhase : changes.updates ≠ [] → phase.includes .updateDivergent = true)
    (hinsertPhase : changes.inserts ≠ [] → phase.includes .insertMissing = true)
    (hQ : ∀ s', s.Moved source (keysOf (changes.updates ++ changes.inserts))
      (orRepaired world (keysOf (changes.updates ++ changes.inserts))) (phaseKinds world phase) s' →
      Q () s')
    (hR : ∀ s', s.Moved source (fun _ => False)
      (orRepaired world (keysOf (changes.updates ++ changes.inserts))) (phaseKinds world phase) s' →
      R s') :
    Prog.wp (applySourceChanges world config source changes) Q (SyncStopped world R) s := by
  have hmayUpdate : ∀ k, mayMove world changes.updates k →
      orRepaired world (keysOf (changes.updates ++ changes.inserts)) k :=
    fun _ h => h.imp_left fun h => keysOf_append.mpr (Or.inl h)
  have hmayInsert : ∀ k, mayMove world changes.inserts k →
      orRepaired world (keysOf (changes.updates ++ changes.inserts)) k :=
    fun _ h => h.imp_left fun h => keysOf_append.mpr (Or.inr h)
  unfold applySourceChanges
  rw [Prog.wp_bind]
  refine wp_applyStrictMutations hupdatePhase hupdates ?_ ?_
  · intro s' hs' hfresh
    have hmoved := hs'.mono (fun _ h => h) hmayUpdate fun _ h => h
    refine wp_applyStrictMutations hinsertPhase ⟨hinserts.source, hinserts.nodup, ?_⟩ ?_ ?_
    · intro r hr
      have hnone := hinserts.ready r hr
      rw [MutationKind.Ready, Option.isNone_iff_eq_none] at hnone ⊢
      refine hfresh _ hnone fun hk => ?_
      obtain ⟨u, hu, hkey⟩ := List.mem_map.mp hk
      have hsome := hupdates.ready u hu
      rw [MutationKind.Ready, hkey, hnone] at hsome
      cases hsome
    · intro s'' hs'' _
      refine hQ s'' ((hmoved.next (hs''.mono (fun _ h => h) hmayInsert fun _ h => h)).mono ?_
        (fun _ h => h) fun _ h => h)
      exact fun _ h => keysOf_append.mp h
    · intro s'' hs''
      exact hR s'' (hmoved.next (hs''.mono (fun _ h => h) hmayInsert fun _ h => h)).loosen
  · intro s' hs'
    exact hR s' (hs'.mono (fun _ h => h) hmayUpdate fun _ h => h)

/-! ## Windows -/

section Window

variable {target : SyncRows} {after : Option PrimaryKey} {endAt : PrimaryKey}

theorem indexRows_select_nodup :
    ((indexRows (source.select after (some endAt))).map DatabaseRow.primaryKey).Nodup := by
  refine ((List.perm_insertionSort _ _).map _).nodup_iff.mpr ?_
  exact List.pairwise_map.mpr ((source.select_sorted _ _).imp fun h => h.ne)

theorem select_keys_nodup (rows : SyncRows) :
    ((rows.select after (some endAt)).map DatabaseRow.primaryKey).Nodup :=
  List.pairwise_map.mpr ((rows.select_sorted _ _).imp fun h => h.ne)

/-- A key of a window has a row in the window exactly when it has one in the table. -/
theorem hasKey_select (rows : SyncRows) {key : PrimaryKey}
    (hkey : KeyedTable.InWindow after (some endAt) key) :
    hasKey (rows.select after (some endAt)) key = (rows.find key).isSome := by
  rw [Bool.eq_iff_iff, hasKey_eq_true, KeyedTable.find_isSome, List.mem_map]
  constructor
  · rintro ⟨r, hr, rfl⟩
    exact ⟨r, (KeyedTable.mem_select.mp hr).1, rfl⟩
  · rintro ⟨r, hr, rfl⟩
    exact ⟨r, KeyedTable.mem_select.mpr ⟨hr, hkey⟩, rfl⟩

variable (table : SyncTable)

/-- The comparison of a window of the source with the target. -/
def windowComparison (source target : SyncRows) (after : Option PrimaryKey) (endAt : PrimaryKey) :
    TargetPageChanges × List DatabaseRow :=
  reconcileTargetPage table (indexRows (source.select after (some endAt)))
    (target.select after (some endAt))

variable {table}

theorem mem_windowComparison_deletes {key : PrimaryKey} :
    key ∈ (windowComparison table source target after endAt).1.deletes ↔
      KeyedTable.InWindow after (some endAt) key ∧ source.find key = none ∧
        (target.find key).isSome = true := by
  unfold windowComparison
  rw [reconcileTargetPage_deletes (select_keys_nodup target), List.mem_filter, hasKey_indexRows]
  constructor
  · rintro ⟨hkey, hsource⟩
    obtain ⟨r, hr, rfl⟩ := List.mem_map.mp hkey
    obtain ⟨hrow, hwindow⟩ := KeyedTable.mem_select.mp hr
    rw [hasKey_select source hwindow] at hsource
    refine ⟨hwindow, by simpa using hsource, ?_⟩
    rw [KeyedTable.find_key hrow]
    rfl
  · rintro ⟨hwindow, hsource, htarget⟩
    rw [hasKey_select source hwindow, hsource]
    rw [← hasKey_select target hwindow, hasKey_eq_true] at htarget
    exact ⟨List.mem_map.mpr htarget, rfl⟩

theorem mem_windowComparison_updates {row : DatabaseRow} :
    row ∈ (windowComparison table source target after endAt).1.updates ↔
      row ∈ divergentRows table source target after (some endAt) := by
  unfold windowComparison divergentRows
  rw [mem_reconcileTargetPage_updates indexRows_select_nodup (select_keys_nodup target),
    mem_indexRows, List.mem_filter]
  refine and_congr_right fun hrow => ?_
  have hwindow := (KeyedTable.mem_select.mp hrow).2
  constructor
  · rintro ⟨x, hx, hkey, hdiverge⟩
    rw [← hkey, KeyedTable.find_key (KeyedTable.mem_select.mp hx).1]
    exact hdiverge
  · intro hany
    cases hfind : target.find row.primaryKey with
    | none =>
      rw [hfind] at hany
      cases hany
    | some x =>
      rw [hfind] at hany
      have hkey := KeyedTable.key_of_find hfind
      refine ⟨x, KeyedTable.mem_select.mpr ⟨KeyedTable.mem_of_find hfind, ?_⟩, hkey, hany⟩
      rw [hkey]
      exact hwindow

theorem mem_windowComparison_left {row : DatabaseRow} :
    row ∈ (windowComparison table source target after endAt).2 ↔
      row ∈ missingRows source target after (some endAt) := by
  unfold windowComparison missingRows
  rw [reconcileTargetPage_left, List.mem_filter, List.mem_filter, mem_indexRows]
  refine and_congr_right fun hrow => ?_
  rw [hasKey_select target (KeyedTable.mem_select.mp hrow).2]
  cases target.find row.primaryKey <;> simp

theorem windowComparison_deletes_length :
    (windowComparison table source target after endAt).1.deletes.length =
      (extraRows source target after (some endAt)).length := by
  have hmap : (windowComparison table source target after endAt).1.deletes =
      (extraRows source target after (some endAt)).map DatabaseRow.primaryKey := by
    unfold windowComparison extraRows
    rw [reconcileTargetPage_deletes (select_keys_nodup target), List.filter_map]
    congr 1
    refine List.filter_congr fun r hr => ?_
    rw [Function.comp_apply, hasKey_indexRows, hasKey_select source (KeyedTable.mem_select.mp hr).2]
    cases source.find r.primaryKey <;> rfl
  rw [hmap, List.length_map]

theorem windowComparison_updates_nodup :
    ((windowComparison table source target after endAt).1.updates.map
      DatabaseRow.primaryKey).Nodup :=
  (select_keys_nodup target).sublist (reconcileTargetPage_updates_sublist _ _)

theorem windowComparison_left_nodup :
    ((windowComparison table source target after endAt).2.map DatabaseRow.primaryKey).Nodup := by
  unfold windowComparison
  rw [reconcileTargetPage_left]
  exact indexRows_select_nodup.sublist (List.filter_sublist.map _)

theorem windowComparison_updates_length :
    (windowComparison table source target after endAt).1.updates.length =
      (divergentRows table source target after (some endAt)).length := by
  refine ((List.perm_ext_iff_of_nodup (windowComparison_updates_nodup.of_map _) ?_).mpr
    fun row => mem_windowComparison_updates).length_eq
  exact ((select_keys_nodup source).of_map _).filter _

theorem windowComparison_left_length :
    (windowComparison table source target after endAt).2.length =
      (missingRows source target after (some endAt)).length := by
  refine ((List.perm_ext_iff_of_nodup (windowComparison_left_nodup.of_map _) ?_).mpr
    fun row => mem_windowComparison_left).length_eq
  exact ((select_keys_nodup source).of_map _).filter _

/-- The changes of a window, by its comparison. -/
theorem windowChanges_select (phase : SyncMutationPhase) :
    windowChanges table phase ⟨0, [], []⟩ (indexRows (source.select after (some endAt)))
        (target.select after (some endAt)) =
      { deletes := countIf phase .deleteExtras (extraRows source target after (some endAt))
        updates := if phase.includes .updateDivergent then
          (windowComparison table source target after endAt).1.updates else []
        inserts := if phase.includes .insertMissing then
          (windowComparison table source target after endAt).2 else [] } := by
  have hlength : (windowComparison table source target after endAt).1.deletes.length =
      (extraRows source target after (some endAt)).length := windowComparison_deletes_length
  simp only [windowChanges, countIf, ← hlength, Nat.zero_add, List.nil_append, windowComparison]

/-- The keys that a phase changes in a window are those it deletes, updates and inserts. -/
theorem windowKeys_iff {key : PrimaryKey} :
    windowKeys table phase source target after (some endAt) key ↔
      deletedKeys phase (windowComparison table source target after endAt).1.deletes key ∨
        keysOf ((if phase.includes .updateDivergent then
            (windowComparison table source target after endAt).1.updates else []) ++
          if phase.includes .insertMissing then
            (windowComparison table source target after endAt).2 else []) key := by
  rw [keysOf_append]
  unfold windowKeys deletedKeys
  rw [mem_windowComparison_deletes]
  constructor
  · rintro ⟨hwindow, hselects⟩
    cases hsource : source.find key with
    | none =>
      cases htarget : target.find key with
      | none => simp [selects, hsource, htarget] at hselects
      | some x =>
        rw [hsource, htarget] at hselects
        exact Or.inl ⟨hselects, hwindow, rfl, rfl⟩
    | some row =>
      have hkey := KeyedTable.key_of_find hsource
      have hrow : row ∈ source.select after (some endAt) :=
        KeyedTable.mem_select.mpr ⟨KeyedTable.mem_of_find hsource, hkey ▸ hwindow⟩
      cases htarget : target.find key with
      | none =>
        rw [hsource, htarget] at hselects
        have hselected : phase.includes .insertMissing = true := hselects
        refine Or.inr (Or.inr ?_)
        rw [if_pos hselected]
        refine List.mem_map.mpr ⟨row, mem_windowComparison_left.mpr ?_, hkey⟩
        exact List.mem_filter.mpr ⟨hrow, by rw [hkey, htarget]; rfl⟩
      | some x =>
        rw [hsource, htarget] at hselects
        obtain ⟨hselected, hdiverge⟩ := (Bool.and_eq_true _ _).mp hselects
        refine Or.inr (Or.inl ?_)
        rw [if_pos hselected]
        refine List.mem_map.mpr ⟨row, mem_windowComparison_updates.mpr ?_, hkey⟩
        exact List.mem_filter.mpr ⟨hrow, by rw [hkey, htarget]; exact hdiverge⟩
  · rintro (⟨hphase, hwindow, hsource, htarget⟩ | hupdate | hinsert)
    · obtain ⟨x, hx⟩ := Option.isSome_iff_exists.mp htarget
      refine ⟨hwindow, ?_⟩
      rw [hsource, hx]
      exact hphase
    · split at hupdate
      case isFalse => simp [keysOf] at hupdate
      case isTrue hphase =>
        obtain ⟨row, hrow, rfl⟩ := List.mem_map.mp hupdate
        obtain ⟨hselect, hany⟩ := List.mem_filter.mp (mem_windowComparison_updates.mp hrow)
        obtain ⟨hmem, hwindow⟩ := KeyedTable.mem_select.mp hselect
        refine ⟨hwindow, ?_⟩
        rw [KeyedTable.find_key hmem]
        cases htarget : target.find row.primaryKey with
        | none =>
          rw [htarget] at hany
          cases hany
        | some x =>
          rw [htarget] at hany
          exact (Bool.and_eq_true _ _).mpr ⟨hphase, hany⟩
    · split at hinsert
      case isFalse => simp [keysOf] at hinsert
      case isTrue hphase =>
        obtain ⟨row, hrow, rfl⟩ := List.mem_map.mp hinsert
        obtain ⟨hselect, hnone⟩ := List.mem_filter.mp (mem_windowComparison_left.mp hrow)
        obtain ⟨hmem, hwindow⟩ := KeyedTable.mem_select.mp hselect
        refine ⟨hwindow, ?_⟩
        rw [KeyedTable.find_key hmem, Option.isNone_iff_eq_none.mp hnone]
        exact hphase

end Window

/-- A window of source rows that ends at a row after the cursor. -/
theorem wp_applySourceWindow (hsize : 0 < config.chunkSize) {progress : SyncChunkProgress}
    {last : DatabaseRow} {Q : SyncChunkProgress → SyncRuntime → Prop} {R : SyncRuntime → Prop}
    (hQ : ∀ s', s.Moved source
      (windowKeys config.table phase source s.working progress.lastPrimaryKey (some last.primaryKey))
      (orRepaired world (windowKeys config.table phase source s.working progress.lastPrimaryKey
        (some last.primaryKey))) (phaseKinds world phase) s' →
      Q (windowProgress config phase source s.working progress last.primaryKey) s')
    (hR : ∀ s', s.Moved source (fun _ => False)
      (orRepaired world (windowKeys config.table phase source s.working progress.lastPrimaryKey
        (some last.primaryKey))) (phaseKinds world phase) s' → R s') :
    Prog.wp (applySourceWindow world config source phase progress progress.lastPrimaryKey
        (source.select progress.lastPrimaryKey (some last.primaryKey)) last.primaryKey)
      Q (SyncStopped world R) s := by
  generalize hafter : progress.lastPrimaryKey = after at hQ hR ⊢
  generalize hend : last.primaryKey = endAt at hQ hR ⊢
  have hkinds : ∀ p, deleteKinds phase p → phaseKinds world phase p := by
    rintro p ⟨rfl, h⟩
    exact Or.inl h
  have hdelete : ∀ k, deletedKeys phase
      (windowComparison config.table source s.working after endAt).1.deletes k →
      orRepaired world (windowKeys config.table phase source s.working after (some endAt)) k :=
    fun k hk => Or.inl (windowKeys_iff.mpr (Or.inl hk))
  unfold applySourceWindow
  rw [Prog.wp_bind, Prog.wp_reads, Prog.wp_bind]
  refine wp_reconcileTargetPages source hsize _ rfl (Nat.lt_succ_of_le (List.length_filter_le _ _)) ?_ ?_ ?_
  · intro row hrow habs
    rw [hasKey_indexRows, hasKey_select source (KeyedTable.mem_select.mp hrow).2] at habs
    simpa using habs
  · intro s₁ hs₁
    have hmoved := hs₁.mono (fun _ h => h) hdelete hkinds
    rw [windowChanges_select, Prog.wp_bind]
    -- The deletes leave every key of the source alone.
    have hkeep : ∀ r ∈ source.rows, s₁.working.find r.primaryKey = s.working.find r.primaryKey := by
      intro r hr
      rcases (hs₁.rows r.primaryKey).2 with he | ⟨⟨-, hdel⟩, -⟩
      · exact he
      · have hnone := (mem_windowComparison_deletes.mp hdel).2.1
        rw [KeyedTable.find_key hr] at hnone
        cases hnone
    have hwrite : ∀ k, keysOf ((if phase.includes .updateDivergent then
        (windowComparison config.table source s.working after endAt).1.updates else []) ++
        if phase.includes .insertMissing then
          (windowComparison config.table source s.working after endAt).2 else []) k →
        windowKeys config.table phase source s.working after (some endAt) k :=
      fun k hk => windowKeys_iff.mpr (Or.inr hk)
    refine wp_applySourceChanges phase ?_ ?_ ?_ ?_ ?_ ?_
    · dsimp only
      split
      case isFalse => exact ⟨by simp, List.nodup_nil, by simp⟩
      case isTrue =>
        refine ⟨?_, windowComparison_updates_nodup, ?_⟩
        · intro r hr
          have hrow := (List.mem_filter.mp (mem_windowComparison_updates.mp hr)).1
          exact (KeyedTable.mem_select.mp hrow).1
        · intro r hr
          obtain ⟨hrow, hany⟩ := List.mem_filter.mp (mem_windowComparison_updates.mp hr)
          change (s₁.working.find r.primaryKey).isSome = true
          rw [hkeep r (KeyedTable.mem_select.mp hrow).1]
          cases hfind : s.working.find r.primaryKey with
          | none =>
            rw [hfind] at hany
            cases hany
          | some x => rfl
    · dsimp only
      split
      case isFalse => exact ⟨by simp, List.nodup_nil, by simp⟩
      case isTrue =>
        refine ⟨?_, windowComparison_left_nodup, ?_⟩
        · intro r hr
          have hrow := (List.mem_filter.mp (mem_windowComparison_left.mp hr)).1
          exact (KeyedTable.mem_select.mp hrow).1
        · intro r hr
          obtain ⟨hrow, hnone⟩ := List.mem_filter.mp (mem_windowComparison_left.mp hr)
          change (s₁.working.find r.primaryKey).isNone = true
          rw [hkeep r (KeyedTable.mem_select.mp hrow).1]
          exact hnone
    · intro hne
      by_contra hphase
      exact hne (if_neg hphase)
    · intro hne
      by_contra hphase
      exact hne (if_neg hphase)
    · intro s₂ hs₂
      have hresult := hQ s₂ ((hmoved.next (hs₂.mono (fun _ h => h)
        (fun k hk => hk.imp_left (hwrite k)) fun _ h => h)).mono (fun k hk => ?_)
        (fun _ h => h) fun _ h => h)
      · rw [Prog.wp_pure]
        convert hresult using 1
        simp only [recordProgress, windowProgress, countIf, hafter, apply_ite List.length,
          List.length_nil, windowComparison_updates_length, windowComparison_left_length]
      · exact windowKeys_iff.mp hk
    · intro s₂ hs₂
      exact hR s₂ (hmoved.next (hs₂.mono (fun _ h => h)
        (fun k hk => hk.imp_left (hwrite k)) fun _ h => h)).loosen
  · intro s' hs'
    exact hR s' (hs'.mono (fun _ h => h) hdelete hkinds)

/-! ## The tail -/

/-- A page of the target after the last source row. -/
theorem wp_applyTargetTail (source : SyncRows) (hsize : 0 < config.chunkSize)
    {progress : SyncChunkProgress} {Q : SyncChunkProgress → SyncRuntime → Prop}
    {R : SyncRuntime → Prop} (hsource : source.select progress.lastPrimaryKey none = [])
    (hQ : ∀ page s', page.PageOf (s.working.select progress.lastPrimaryKey none) →
      s.Moved source (tailKeys phase page) (orRepaired world (tailKeys phase page))
        (phaseKinds world phase) s' → Q (tailProgress phase progress page) s')
    (hR : ∀ page s', page.PageOf (s.working.select progress.lastPrimaryKey none) →
      s.Moved source (fun _ => False) (orRepaired world (tailKeys phase page))
        (phaseKinds world phase) s' → R s') :
    Prog.wp (applyTargetTail world config phase progress progress.lastPrimaryKey) Q
      (SyncStopped world R) s := by
  have hpageOf : (querySyncPageRows s.working
      ⟨progress.lastPrimaryKey, none, config.chunkSize⟩).PageOf
      (s.working.select progress.lastPrimaryKey none) := querySyncPageRows_pageOf s.working hsize
  unfold applyTargetTail
  rw [Prog.wp_bind]
  refine wp_mapError (wp_sessionOperation ?_ (hR _ _ hpageOf (SyncRuntime.Moved.ticked s)))
  generalize querySyncPageRows s.working ⟨progress.lastPrimaryKey, none, config.chunkSize⟩ = page
    at hpageOf ⊢
  have hQ' := fun s' => hQ page s' hpageOf
  have hR' := fun s' => hR page s' hpageOf
  have hidle : ∀ {must}, s.Moved source (fun _ => False) must (phaseKinds world phase)
      (id s.ticked) := SyncRuntime.Moved.ticked s
  -- The rows of the page are rows of the target that the source does not have.
  have hrow : ∀ r ∈ page.rows, r ∈ s.working.rows ∧ source.find r.primaryKey = none := by
    intro r hr
    obtain ⟨rest, hrest⟩ := hpageOf.rest
    have hselected : r ∈ s.working.select progress.lastPrimaryKey none :=
      hrest ▸ List.mem_append_left _ hr
    obtain ⟨hmem, hwindow⟩ := KeyedTable.mem_select.mp hselected
    refine ⟨hmem, KeyedTable.find_eq_none.mpr fun x hx hkey => ?_⟩
    have hx' : x ∈ source.select progress.lastPrimaryKey none :=
      KeyedTable.mem_select.mpr ⟨hx, hkey ▸ hwindow⟩
    rw [hsource] at hx'
    cases hx'
  have hnodup : (page.rows.map DatabaseRow.primaryKey).Nodup := by
    obtain ⟨rest, hrest⟩ := hpageOf.rest
    have hsorted := s.working.select_sorted progress.lastPrimaryKey none
    rw [hrest] at hsorted
    exact List.pairwise_map.mpr ((List.pairwise_append.mp hsorted).1.imp fun h => h.ne)
  by_cases hphase : phase.includes .deleteExtras = true
  · have hresult : tailProgress phase progress page =
        { progress with
          complete := !page.hasMore
          chunks := progress.chunks + 1
          deletes := progress.deletes + page.rows.length } := by
      simp only [tailProgress, countIf, if_pos hphase]
    rw [hresult] at hQ'
    by_cases hempty : page.rows = []
    · simp only [hempty, List.map_nil, List.isEmpty_nil, Bool.not_true, Bool.and_false,
        Bool.false_eq_true, if_false, if_pos hphase, List.length_nil]
      have hmoved := hQ' _ (hidle.mono (fun k hk => ?_) (fun _ h => h) fun _ h => h)
      · rw [hempty] at hmoved
        exact hmoved
      · rw [tailKeys, hempty] at hk
        simp at hk
    · have hkeys : (page.rows.map DatabaseRow.primaryKey).isEmpty = false := by
        simpa using hempty
      simp only [hphase, hkeys, Bool.not_false, Bool.and_true, if_true]
      rw [Prog.wp_bind]
      have habsent : ∀ k ∈ page.rows.map DatabaseRow.primaryKey, source.find k = none := by
        intro k hk
        obtain ⟨r, hr, rfl⟩ := List.mem_map.mp hk
        exact (hrow r hr).2
      refine wp_mapError (wp_deleteRows habsent hnodup ?_ ?_ ?_)
      · intro _ k hk
        obtain ⟨r, hr, rfl⟩ := List.mem_map.mp hk
        change (s.working.find r.primaryKey).isSome = true
        rw [KeyedTable.find_key (hrow r hr).1]
        rfl
      · intro s' hs'
        refine hQ' s' ((hidle.next (hs'.mono (fun _ h => h) (fun _ h => Or.inl ⟨hphase, h⟩) ?_)).mono
          (fun _ h => Or.inr h.2) (fun _ h => h) fun _ h => h)
        rintro p rfl
        exact Or.inl hphase
      · intro s' hs'
        refine hR' s' (hidle.next (hs'.mono (fun _ h => h) (fun _ h => Or.inl ⟨hphase, h⟩) ?_)).loosen
        rintro p rfl
        exact Or.inl hphase
  · have hmoved := hQ' _ (hidle.mono (fun k hk => absurd hk.1 hphase) (fun _ h => h) fun _ h => h)
    simp only [hphase, Bool.false_and, Bool.false_eq_true, if_false, List.getLast?_map]
    simp only [tailProgress, countIf, hphase, Bool.false_eq_true, if_false, Nat.add_zero] at hmoved
    cases hlast : page.rows.getLast? with
    | none =>
      rw [hlast] at hmoved
      exact hmoved
    | some last =>
      rw [hlast] at hmoved
      exact hmoved

/-! ## A whole chunk -/

/-- The rows moved towards the source within a phase; nothing else of the state changed. -/
def SyncRuntime.Drifted (world : SyncWorld) (source : SyncRows) (phase : SyncMutationPhase)
    (s s' : SyncRuntime) : Prop :=
  s.Moved source (fun _ => False) (fun _ => True) (phaseKinds world phase) s'

theorem SyncRuntime.Moved.drifted {must may : PrimaryKey → Prop} {s' : SyncRuntime}
    (h : s.Moved source must may (phaseKinds world phase) s') : s.Drifted world source phase s' :=
  h.mono (fun _ h => h.elim) (fun _ _ => trivial) fun _ h => h

/-- The state after a chunk was committed: its keys are at the source, and the committed rows are
those that the session sees. -/
structure SyncRuntime.Committed (world : SyncWorld) (source : SyncRows) (phase : SyncMutationPhase)
    (keys : PrimaryKey → Prop) (s s' : SyncRuntime) : Prop where
  /-- The rows moved towards the source. -/
  rows : KeyedTable.Pulls source keys (orRepaired world keys) s.working s'.working
  /-- The rows are committed. -/
  committed : s'.committed = s'.working
  /-- The progress rows are the same. -/
  progress : s'.progress = s.progress
  /-- The mutations executed. -/
  mutations : ∃ executed, s'.mutations = s.mutations ++ executed ∧
    ∀ m ∈ executed, phaseKinds world phase m.kind

/-- A chunk is committed, or it stops with rows that moved towards the source. -/
theorem wp_applyLockedChunk (hsize : 0 < config.chunkSize) {progress : SyncChunkProgress}
    {Q : SyncChunkProgress → SyncRuntime → Prop} {R : SyncRuntime → Prop}
    (hQ : ∀ next keys s', ChunkStep config source phase progress s.working next keys →
      s.Committed world source phase keys s' → Q next s')
    (hR : ∀ s', s.Drifted world source phase s' → R s') :
    Prog.wp (applyLockedChunk world config source phase progress) Q (SyncStopped world R) s := by
  have hpageOf : (querySyncPageRows source
      ⟨progress.lastPrimaryKey, none, config.chunkSize⟩).PageOf
      (source.select progress.lastPrimaryKey none) := querySyncPageRows_pageOf source hsize
  -- The chunk is committed where its rows are written.
  have hcommit : ∀ next keys s₁, ChunkStep config source phase progress s.working next keys →
      s.Moved source keys (orRepaired world keys) (phaseKinds world phase) s₁ →
      Prog.wp (do
        (commit world).mapError fun error =>
          s!"commit target chunk for `{config.table.name}`: {error}"
        pure next) Q (SyncStopped world R) s₁ := by
    intro next keys s₁ hstep hs₁
    rw [Prog.wp_bind]
    refine wp_mapError (wp_sessionOperation ?_ ?_)
    · exact hQ next keys _ hstep ⟨hs₁.rows, rfl, hs₁.progress, hs₁.mutations⟩
    · exact hR _ (hs₁.next (SyncRuntime.Moved.ticked s₁)).drifted
  unfold applyLockedChunk
  rw [Prog.wp_bind]
  refine wp_mapError (wp_sessionOperation ?_ (hR _ (SyncRuntime.Moved.ticked s)))
  generalize querySyncPageRows source ⟨progress.lastPrimaryKey, none, config.chunkSize⟩ = page
    at hpageOf ⊢
  have hticked : ∀ {may kinds}, s.Moved source (fun _ => False) may kinds (id s.ticked) :=
    SyncRuntime.Moved.ticked s
  have hforget : ∀ must : PrimaryKey → Prop, ∀ k, must k → False ∨ must k := fun _ _ h => Or.inr h
  cases hlast : page.rows.getLast? with
  | none =>
    have hnil : page.rows = [] := List.getLast?_eq_none_iff.mp hlast
    have hsource : source.select progress.lastPrimaryKey none = [] :=
      (hpageOf.last (hpageOf.nonempty hnil)).symm.trans hnil
    dsimp only
    rw [Prog.wp_bind]
    refine wp_applyTargetTail source hsize hsource ?_ ?_
    · intro tail s₁ htail hs₁
      exact hcommit _ _ _ (.tail tail hsource htail) ((hticked.next hs₁).mono (hforget _)
        (fun _ h => h) fun _ h => h)
    · intro tail s₁ _ hs₁
      exact hR s₁ (hticked.next hs₁).drifted
  | some last =>
    obtain ⟨rest, hrest⟩ := hpageOf.rest
    have hselect : source.select progress.lastPrimaryKey (some last.primaryKey) = page.rows :=
      KeyedTable.select_upto_page hrest hlast
    have hmem : last ∈ source.select progress.lastPrimaryKey none :=
      hrest ▸ List.mem_append_left _ (List.mem_of_getLast? hlast)
    dsimp only
    rw [Prog.wp_bind, ← hselect]
    refine wp_applySourceWindow hsize ?_ ?_
    · intro s₁ hs₁
      exact hcommit _ _ _ (.window last hmem) ((hticked.next hs₁).mono (hforget _)
        (fun _ h => h) fun _ h => h)
    · intro s₁ hs₁
      exact hR s₁ (hticked.next hs₁).drifted

end Steps

end BinlogCdc
