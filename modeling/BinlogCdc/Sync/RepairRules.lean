import BinlogCdc.Sync.SessionRules

/-!
# Repairs of secondary unique conflicts

A duplicate error is answered by bringing the owner of the values to its source row, or by
deleting it where the source has none, and sending the mutation again. Every repair is a
move towards the source that makes no new key, and no conflict is repaired twice, so the
rounds of a mutation are bounded.
-/

namespace BinlogCdc

theorem batches_singleton {β : Type} {capacity : Nat} (hcapacity : 0 < capacity) (x : β) :
    batches capacity [x].length [x] = [[x]] := by
  rw [List.length_singleton, batches, List.take_of_length_le hcapacity,
    List.drop_of_length_le hcapacity, batches]
  simp

/-- The conflicts resolved so far: none twice, and each of an index, a row to write and a key
that the target can have. -/
structure Reconciled (indexes : List SyncUniqueIndex) (writes keys : List PrimaryKey)
    (reconciled : List RepairKey) : Prop where
  /-- No conflict is resolved twice. -/
  nodup : reconciled.Nodup
  /-- Each is one of finitely many. -/
  subset : reconciled ⊆ indexes.map SyncUniqueIndex.name ×ˢ writes ×ˢ keys

theorem Reconciled.length_le {indexes : List SyncUniqueIndex} {writes keys : List PrimaryKey}
    {reconciled : List RepairKey} (h : Reconciled indexes writes keys reconciled) :
    reconciled.length ≤ indexes.length * (writes.length * keys.length) := by
  have hle := (List.subperm_of_subset h.nodup h.subset).length_le
  rwa [List.length_product, List.length_product, List.length_map] at hle

section Repairs

variable [LinearOrder PrimaryKey] {world : SyncWorld} {source : SyncRows} {α β : Type}
  {config : SyncChunkConfig} {table : SyncTable} {s s' s'' : SyncRuntime}

/-- Only the tick moved. -/
def SyncRuntime.Idle (s s' : SyncRuntime) : Prop := s' = { s with tick := s'.tick }

theorem SyncRuntime.Idle.working (h : s.Idle s') : s'.working = s.working := by rw [h]

theorem SyncRuntime.Idle.trans (h : s.Idle s') (h' : s'.Idle s'') : s.Idle s'' := by
  unfold SyncRuntime.Idle at *
  rw [h'] at *
  rw [h]

theorem SyncRuntime.Idle.moved {may : PrimaryKey → Prop} {kinds : SyncMutationPhase → Prop}
    (h : s.Idle s') : s.Moved source (fun _ => False) may kinds s' := by
  rw [h]
  exact SyncRuntime.Moved.still rfl rfl rfl rfl rfl

/-- The state after repairs: some rows moved towards the source, and no key is new. -/
structure SyncRuntime.Repaired (source : SyncRows) (s s' : SyncRuntime) : Prop where
  /-- The rows moved towards the source. -/
  moved : s.Moved source (fun _ => False) (fun _ => True) (fun _ => True) s'
  /-- No key is new. -/
  shrinks : ∀ k, s.working.find k = none → s'.working.find k = none

namespace SyncRuntime.Repaired

theorem of_idle (h : s.Idle s') : s.Repaired source s' :=
  ⟨h.moved, fun k hk => by rw [h.working, hk]⟩

theorem refl (s : SyncRuntime) : s.Repaired source s := of_idle rfl

theorem trans (h : s.Repaired source s') (h' : s'.Repaired source s'') : s.Repaired source s'' :=
  ⟨(h.moved.next h'.moved).loosen, fun k hk => h'.shrinks k (h.shrinks k hk)⟩

/-- A key of the source that is present stays present. -/
theorem present (h : s.Repaired source s') {k : PrimaryKey} (hsource : (source.find k).isSome = true)
    (hk : (s.working.find k).isSome = true) : (s'.working.find k).isSome = true := by
  rcases (h.moved.rows k).2 with he | ⟨-, he⟩
  · rwa [he]
  · rwa [he]

end SyncRuntime.Repaired

/-! ## Programs that only repair -/

/-- The program only repairs, in a world that has interfered. -/
def Repairs (world : SyncWorld) (source : SyncRows) (c : Sync α) : Prop :=
  ∀ s, Prog.wp c (fun _ s' => s.Repaired source s') (SyncStopped world (s.Repaired source)) s

namespace Repairs

theorem pure (a : α) : Repairs world source (Pure.pure a : Sync α) :=
  fun s => SyncRuntime.Repaired.refl s

theorem fail (hquiet : ¬ world.Quiet) (message : String) :
    Repairs world source (Prog.fail (.error message) : Sync α) :=
  fun s => ⟨by simp, hquiet, SyncRuntime.Repaired.refl s⟩

theorem bind {c : Sync α} {f : α → Sync β} (hc : Repairs world source c)
    (hf : ∀ a, Repairs world source (f a)) : Repairs world source (c >>= f) := by
  intro s
  rw [Prog.wp_bind]
  refine Prog.wp_mono (hc s) ?_ fun _ _ h => h
  intro a s' hs'
  refine Prog.wp_mono (hf a s') (fun _ s'' hs'' => hs'.trans hs'') ?_
  exact fun stop s'' hs'' => hs''.mono fun h => hs'.trans h

theorem decided (hquiet : ¬ world.Quiet) (result : Except String α) :
    Repairs world source (Sync.decided result) := by
  cases result with
  | ok a => exact pure a
  | error message => exact fail hquiet message

theorem mapError {c : Sync α} {text : String → String} (hc : Repairs world source c) :
    Repairs world source (c.mapError text) := fun s => wp_mapError (hc s)

theorem read (answer : SyncRuntime → α) :
    Repairs world source (sessionOperation world answer id) :=
  fun _ => wp_sessionOperation (SyncRuntime.Repaired.of_idle rfl) (SyncRuntime.Repaired.of_idle rfl)

theorem ite {b : Prop} [Decidable b] {c d : Sync α} (hc : b → Repairs world source c)
    (hd : ¬ b → Repairs world source d) : Repairs world source (if b then c else d) := by
  by_cases h : b
  · rw [if_pos h]
    exact hc h
  · rw [if_neg h]
    exact hd h

/-- An executed statement that moves rows towards the source and makes no key. -/
theorem executeStatement (hquiet : ¬ world.Quiet) {mutation : SyncMutation}
    {effect : StatementEffect} {expected : Nat}
    (heffect : ∀ t matched t', effect t = some (matched, t') →
      KeyedTable.Pulls source (fun _ => False) (fun _ => True) t t' ∧
        ∀ k, t.find k = none → t'.find k = none) :
    Repairs world source (executeStatement world table mutation effect expected) := by
  intro s
  refine wp_executeStatement_of_not_quiet hquiet ?_ ?_ ?_
  · intro _ matched rows hrows
    obtain ⟨hpulls, hshrinks⟩ := heffect _ _ _ hrows
    exact ⟨SyncRuntime.Moved.mutated trivial hpulls, hshrinks⟩
  · exact fun _ => SyncRuntime.Repaired.of_idle rfl
  · exact SyncRuntime.Repaired.of_idle rfl

/-- The update of a row that the source has. -/
theorem updateRow (hquiet : ¬ world.Quiet) {row : DatabaseRow} (hrow : row ∈ source.rows) :
    Repairs world source (updateRows world table [row]) := by
  have hbatches : batches (strictUpdateBatchCapacity table) [row].length [row] = [[row]] :=
    batches_singleton (boundedMutationCapacity_pos _) row
  unfold updateRows
  rw [hbatches]
  refine bind (executeStatement hquiet ?_) fun result => ?_
  · rintro t matched t' ht'
    cases ht'
    have hpresent : ∀ r ∈ [row].filter (fun r => (t.find r.primaryKey).isSome), r = row :=
      fun r hr => List.mem_singleton.mp (List.mem_of_mem_filter hr)
    refine ⟨(KeyedTable.pulls_putAll ?_ ?_).mono (fun _ h => h.elim) fun _ _ => trivial, ?_⟩
    · intro r hr
      rw [hpresent r hr]
      exact hrow
    · exact ((List.nodup_singleton row).filter _).map_on fun r hr r' hr' _ =>
        (hpresent r hr).trans (hpresent r' hr').symm
    · intro k hk
      rw [KeyedTable.find_putAll_of_notMem, hk]
      rintro hmem
      obtain ⟨r, hr, rfl⟩ := List.mem_map.mp hmem
      have hsome := (List.mem_filter.mp hr).2
      rw [hk] at hsome
      cases hsome
  · cases result with
    | ok _ => exact pure _
    | error failure => exact pure _

/-- The delete of a key that the source does not have. -/
theorem deleteRow (hquiet : ¬ world.Quiet) {key : PrimaryKey} (hkey : source.find key = none) :
    Repairs world source (deleteRows world table [key]) := by
  have hbatches : batches (strictDeleteBatchCapacity table) [key].length [key] = [[key]] :=
    batches_singleton (boundedMutationCapacity_pos _) key
  unfold deleteRows
  rw [hbatches]
  refine bind (bind (executeStatement hquiet ?_) fun result => ?_) fun _ => pure _
  · rintro t matched t' ht'
    cases ht'
    refine ⟨(KeyedTable.pulls_erase ?_).mono (fun _ h => h.elim) fun _ _ => trivial, ?_⟩
    · intro k hk
      rw [List.mem_singleton.mp hk]
      exact hkey
    · intro k hk
      rw [KeyedTable.find_erase, hk, ite_self]
  · cases result with
    | ok _ => exact pure _
    | error failure => exact fail hquiet _

theorem queryUniqueOwner (hquiet : ¬ world.Quiet) (index : SyncUniqueIndex)
    (intended : DatabaseRow) :
    Repairs world source (queryUniqueOwner world table index intended) := by
  unfold BinlogCdc.queryUniqueOwner
  refine ite (fun _ => bind (fail hquiet _) fun _ => ?_) fun _ => ?_
  · exact bind (decided hquiet _) fun _ => bind (read _) fun _ => decided hquiet _
  · exact bind (decided hquiet _) fun _ => bind (read _) fun _ => decided hquiet _

theorem verifyExactRow (hquiet : ¬ world.Quiet) (actual expected : Option DatabaseRow)
    (label : String) : Repairs world source (verifyExactRow actual expected label) :=
  ite (fun _ => pure _) fun _ => fail hquiet _

/-- The action brings an owner to its source row, or deletes it where the source has none. -/
def Towards (source : SyncRows) (owner : PrimaryKey) : SyncUniqueOwnerAction → Prop
  | .update row => row ∈ source.rows
  | .delete => source.find owner = none

/-- Bringing an owner to its source row, or deleting it where the source has none. -/
theorem reconcileUniqueOwner (hquiet : ¬ world.Quiet) {conflict : SyncUniqueOwnerConflict}
    {action : SyncUniqueOwnerAction}
    (haction : Towards source conflict.owner.primaryKey action) :
    Repairs world source (reconcileUniqueOwner world table conflict action) := by
  -- Both actions end with the query for the owner of the identity.
  have hunowned : ∀ {finish : Option DatabaseRow → Sync Unit}, Repairs world source (finish none) →
      (∀ row, Repairs world source (finish (some row))) → Repairs world source
        (BinlogCdc.queryUniqueOwner world table conflict.index conflict.intended >>= finish) := by
    intro finish hnone hsome
    refine bind (queryUniqueOwner hquiet _ _) fun owner => ?_
    cases owner with
    | none => exact hnone
    | some row => exact hsome row
  unfold BinlogCdc.reconcileUniqueOwner
  cases action with
  | update row =>
    refine bind (updateRow hquiet haction) fun result => ?_
    cases result with
    | ok _ =>
      exact bind (read _) fun _ => bind (verifyExactRow hquiet _ _ _) fun _ =>
        hunowned (pure _) fun _ => fail hquiet _
    | error failure =>
      exact bind (fail hquiet _) fun _ =>
        bind (read _) fun _ => bind (verifyExactRow hquiet _ _ _) fun _ =>
          hunowned (pure _) fun _ => fail hquiet _
  | delete =>
    refine bind (deleteRow hquiet haction) fun _ => ?_
    exact bind (read _) fun _ => bind (verifyExactRow hquiet _ _ _) fun _ =>
      hunowned (pure _) fun _ => fail hquiet _

/-- The plan for an owner: its source row, or its deletion where the source has none. -/
theorem plan_of_source {conflict : SyncUniqueOwnerConflict} {action : SyncUniqueOwnerAction}
    {name : String}
    (h : planUniqueOwnerAction name conflict (source.find conflict.owner.primaryKey) = .ok action) :
    Towards source conflict.owner.primaryKey action := by
  unfold planUniqueOwnerAction at h
  cases hidentity : validateUniqueOwnerConflict name conflict with
  | error message =>
    rw [hidentity] at h
    cases h
  | ok identity =>
    rw [hidentity] at h
    cases hfind : source.find conflict.owner.primaryKey with
    | none =>
      rw [hfind] at h
      cases h
      exact hfind
    | some row =>
      rw [hfind] at h
      change (do
        validateCurrentSourceOwner name conflict row identity
        Except.ok (SyncUniqueOwnerAction.update row)) = .ok action at h
      cases hvalid : validateCurrentSourceOwner name conflict row identity with
      | error message =>
        rw [hvalid] at h
        cases h
      | ok _ =>
        rw [hvalid] at h
        cases h
        exact KeyedTable.mem_of_find hfind

end Repairs

/-- One conflict is resolved by a repair, and it was not resolved before. -/
theorem wp_reconcileUniqueOwnerConflict (hquiet : ¬ world.Quiet) {reconciled : List RepairKey}
    {conflict : SyncUniqueOwnerConflict} :
    Prog.wp (reconcileUniqueOwnerConflict world config source reconciled conflict)
      (fun _ s' => s.Repaired source s' ∧ conflict.repairKey ∉ reconciled)
      (SyncStopped world (s.Repaired source)) s := by
  unfold reconcileUniqueOwnerConflict
  by_cases hnew : conflict.repairKey ∈ reconciled
  · rw [if_pos hnew]
    exact ⟨by simp, hquiet, SyncRuntime.Repaired.refl s⟩
  · rw [if_neg hnew, Prog.wp_bind]
    refine wp_mapError (wp_sessionOperation ?_ (SyncRuntime.Repaired.of_idle rfl))
    rw [Prog.wp_bind]
    have hidle : s.Repaired source (id s.ticked) := SyncRuntime.Repaired.of_idle rfl
    refine wp_syncDecided ?_ fun _ _ => ⟨hquiet, hidle⟩
    intro action haction
    have hrepairs : Repairs world source
        (reconcileUniqueOwner world config.table conflict action) :=
      Repairs.reconcileUniqueOwner hquiet (Repairs.plan_of_source haction)
    refine wp_mapError (Prog.wp_mono (hrepairs _) ?_ ?_)
    · exact fun _ s' hs' => ⟨hidle.trans hs', hnew⟩
    · exact fun _ s' hs' => hs'.mono hidle.trans

/-- The conflicts of a batch are resolved by repairs, each of them for the first time. -/
theorem wp_reconcileUniqueOwnerConflicts (hquiet : ¬ world.Quiet)
    (conflicts : List SyncUniqueOwnerConflict) {reconciled : List RepairKey} {s : SyncRuntime}
    (hnodup : reconciled.Nodup) :
    Prog.wp (reconcileUniqueOwnerConflicts world config source reconciled conflicts)
      (fun reconciled' s' => s.Repaired source s' ∧ reconciled'.Nodup ∧
        reconciled' = (conflicts.map SyncUniqueOwnerConflict.repairKey).reverse ++ reconciled)
      (SyncStopped world (s.Repaired source)) s := by
  induction conflicts generalizing reconciled s with
  | nil => exact ⟨SyncRuntime.Repaired.refl s, hnodup, rfl⟩
  | cons conflict rest ih =>
    rw [reconcileUniqueOwnerConflicts, Prog.wp_bind]
    refine Prog.wp_mono (wp_reconcileUniqueOwnerConflict hquiet) ?_ fun _ _ h => h
    rintro _ s' ⟨hs', hnew⟩
    refine Prog.wp_mono (ih (List.nodup_cons.mpr ⟨hnew, hnodup⟩)) ?_ ?_
    · rintro reconciled' s'' ⟨hs'', hnodup', rfl⟩
      refine ⟨hs'.trans hs'', hnodup', ?_⟩
      rw [List.map_cons, List.reverse_cons, List.append_assoc, List.singleton_append]
    · exact fun _ s'' hs'' => hs''.mono hs'.trans

/-! ## Inspection -/

/-- The owner found is a row of the target. -/
theorem wp_queryUniqueOwner (hquiet : ¬ world.Quiet) {index : SyncUniqueIndex}
    {intended : DatabaseRow} :
    Prog.wp (queryUniqueOwner world table index intended)
      (fun owner s' => s.Idle s' ∧ ∀ row ∈ owner, row ∈ s.working.rows)
      (SyncStopped world s.Idle) s := by
  unfold queryUniqueOwner
  by_cases hempty : index.columns.isEmpty = true
  · rw [if_pos hempty]
    exact ⟨by simp, hquiet, rfl⟩
  · rw [if_neg hempty, Prog.wp_bind]
    refine wp_syncDecided ?_ fun _ _ => ⟨hquiet, rfl⟩
    intro _ _
    rw [Prog.wp_bind]
    refine wp_sessionOperation ?_ rfl
    refine wp_syncDecided ?_ fun _ _ => ⟨hquiet, rfl⟩
    intro owner howner
    refine ⟨rfl, ?_⟩
    intro row hrow
    cases hrow
    generalize hrows : (s.working.rows.filter
      (world.uniqueIndexes.sameIdentity index intended)).take 2 = rows at howner
    have hmem : ∀ r ∈ rows, r ∈ s.working.rows := by
      intro r hr
      rw [← hrows] at hr
      exact List.mem_of_mem_filter (List.mem_of_mem_take hr)
    match rows, howner with
    | [r], howner =>
      cases howner
      exact hmem _ (List.mem_singleton.mpr rfl)

/-- The conflict is between a row of the batch and a row of the target. -/
structure SyncUniqueOwnerConflict.Within (conflict : SyncUniqueOwnerConflict)
    (index : SyncUniqueIndex) (batch : List DatabaseRow) (rows : SyncRows) : Prop where
  /-- The index. -/
  index : conflict.index = index
  /-- The row to write. -/
  intended : conflict.intended ∈ batch
  /-- The owner. -/
  owner : (rows.find conflict.owner.primaryKey).isSome = true

theorem wp_uniqueOwnerConflicts (hquiet : ¬ world.Quiet) {index : SyncUniqueIndex}
    (batch : List DatabaseRow) {owners : List PrimaryKey} {s : SyncRuntime} :
    Prog.wp (uniqueOwnerConflicts world table index batch owners)
      (fun conflicts s' => s.Idle s' ∧ ∀ c ∈ conflicts, c.Within index batch s.working)
      (SyncStopped world s.Idle) s := by
  induction batch generalizing owners s with
  | nil => exact ⟨rfl, fun c hc => by cases hc⟩
  | cons intended rest ih =>
    have hskip : ∀ s', s.Idle s' → ∀ owners,
        Prog.wp (uniqueOwnerConflicts world table index rest owners)
          (fun conflicts s'' => s.Idle s'' ∧
            ∀ c ∈ conflicts, c.Within index (intended :: rest) s.working)
          (SyncStopped world s.Idle) s' := by
      intro s' hs' owners
      refine Prog.wp_mono ih ?_ fun _ s'' h => h.mono hs'.trans
      rintro conflicts s'' ⟨hs'', hconflicts⟩
      refine ⟨hs'.trans hs'', fun c hc => ?_⟩
      obtain ⟨hindex, hintended, howner⟩ := hconflicts c hc
      exact ⟨hindex, List.mem_cons_of_mem _ hintended, hs'.working ▸ howner⟩
    rw [uniqueOwnerConflicts, Prog.wp_bind]
    refine Prog.wp_mono (wp_queryUniqueOwner hquiet) ?_ fun _ _ h => h
    rintro owner s' ⟨hs', howner⟩
    cases owner with
    | none => exact hskip s' hs' owners
    | some owner =>
      by_cases hself : owner.primaryKey = intended.primaryKey
      · simp only [if_pos hself]
        exact hskip s' hs' owners
      · simp only [if_neg hself]
        rw [Prog.wp_bind]
        refine wp_syncDecided ?_ fun _ _ => ⟨hquiet, hs'⟩
        intro _ _
        by_cases hseen : owner.primaryKey ∈ owners
        · simp only [if_pos hseen]
          exact ⟨by simp, hquiet, hs'⟩
        · simp only [if_neg hseen]
          rw [Prog.wp_bind]
          refine Prog.wp_mono (hskip s' hs' _) ?_ fun _ _ h => h
          rintro conflicts s'' ⟨hs'', hconflicts⟩
          refine ⟨hs'', fun c hc => ?_⟩
          rcases List.mem_cons.mp hc with rfl | hc
          · refine ⟨rfl, List.mem_cons_self, ?_⟩
            rw [KeyedTable.find_key (howner owner rfl)]
            rfl
          · exact hconflicts c hc

/-- The conflicts found: at least one, each in an index of the table, between a row of the failed
batch and a row of the target. -/
theorem wp_inspectUniqueOwnerConflicts (hquiet : ¬ world.Quiet) {failure : SyncMutationFailure} :
    Prog.wp (inspectUniqueOwnerConflicts world table failure)
      (fun conflicts s' => s.Idle s' ∧ conflicts ≠ [] ∧
        ∃ index ∈ world.uniqueIndexes.indexes,
          ∀ c ∈ conflicts, c.Within index failure.failedBatch s.working)
      (SyncStopped world s.Idle) s := by
  unfold inspectUniqueOwnerConflicts
  by_cases hcode : failure.mysqlCode ≠ some 1062
  · rw [if_pos hcode]
    exact ⟨by simp, hquiet, rfl⟩
  · rw [if_neg hcode]
    unfold loadUniqueIndex
    rw [Prog.wp_bind, Prog.wp_bind]
    refine wp_sessionOperation ?_ rfl
    refine wp_syncDecided ?_ fun _ _ => ⟨hquiet, rfl⟩
    intro index hindex
    have hidle : s.Idle (id s.ticked) := rfl
    rw [Prog.wp_bind]
    refine Prog.wp_mono (wp_uniqueOwnerConflicts hquiet _) ?_ fun _ s' h => h.mono hidle.trans
    rintro conflicts s' ⟨hs', hconflicts⟩
    by_cases hempty : conflicts.isEmpty = true
    · rw [if_pos hempty]
      exact ⟨by simp, hquiet, hidle.trans hs'⟩
    · rw [if_neg hempty]
      refine ⟨hidle.trans hs', ?_, index, world.uniqueIndexes.resolved _ _ hindex, hconflicts⟩
      rintro rfl
      exact hempty rfl

/-! ## Rounds of a mutation -/

/-- Rows that a mutation of a kind can write: rows of the source, under different keys, and each
of them free or taken as the kind needs it. -/
structure MutationKind.Pending (kind : MutationKind) (source rows : SyncRows)
    (pending : List DatabaseRow) : Prop where
  /-- They are rows of the source. -/
  source : ∀ r ∈ pending, r ∈ source.rows
  /-- Their keys are different. -/
  nodup : (pending.map DatabaseRow.primaryKey).Nodup
  /-- They can be written. -/
  ready : ∀ r ∈ pending, kind.Ready rows r

variable {kind : MutationKind} {pending : List DatabaseRow}

/-- The rows that are left after a duplicate error and its repairs can still be written. -/
theorem MutationKind.Pending.retry {applied rest : List DatabaseRow}
    (h : kind.Pending source s.working (applied ++ rest))
    (hmoved : s.Moved source (keysOf applied) (keysOf applied) (· = kind.phase) s')
    (hrepaired : s'.Repaired source s'') : kind.Pending source s''.working rest := by
  have hnodup := h.nodup
  rw [List.map_append, List.nodup_append] at hnodup
  refine ⟨fun r hr => h.source r (List.mem_append_right _ hr), hnodup.2.1, ?_⟩
  intro r hr
  have hready := h.ready r (List.mem_append_right _ hr)
  have hfind : s'.working.find r.primaryKey = s.working.find r.primaryKey := by
    rcases (hmoved.rows r.primaryKey).2 with he | ⟨hk, -⟩
    · exact he
    · exact absurd rfl (hnodup.2.2 _ hk _ (List.mem_map_of_mem hr))
  have hready' := hready.congr hfind
  cases kind with
  | insert =>
    rw [MutationKind.Ready, Option.isNone_iff_eq_none] at hready' ⊢
    exact hrepaired.shrinks _ hready'
  | update =>
    refine hrepaired.present ?_ hready'
    rw [KeyedTable.find_key (h.source r (List.mem_append_right _ hr))]
    rfl

/-- The rounds of a mutation end within their bound, and a success has written every row. -/
theorem wp_retryStrictMutations (writes keys : List PrimaryKey) (fuel : Nat)
    {reconciled : List RepairKey} {intendedRows : List DatabaseRow} {s : SyncRuntime}
    (hpending : kind.Pending source s.working pending)
    (hkeys : ∀ k, (s.working.find k).isSome = true → k ∈ keys)
    (hwrites : ∀ r ∈ pending, r.primaryKey ∈ writes ∧ r.primaryKey ∈ keys)
    (hreconciled : Reconciled world.uniqueIndexes.indexes writes keys reconciled)
    (hfuel : world.uniqueIndexes.indexes.length * (writes.length * keys.length) <
      fuel + reconciled.length) :
    Prog.wp (retryStrictMutations world config source kind fuel pending reconciled intendedRows)
      (fun intendedRows' s' => s.Moved source (keysOf pending)
        (fun k => keysOf pending k ∨ world.uniqueIndexes.indexes ≠ [])
        (fun p => p = kind.phase ∨ world.uniqueIndexes.indexes ≠ []) s' ∧
        (∀ k, s.working.find k = none → ¬ keysOf pending k → s'.working.find k = none) ∧
        (intendedRows' = intendedRows ∨ ¬ world.Quiet))
      (SyncStopped world (s.Moved source (fun _ => False)
        (fun k => keysOf pending k ∨ world.uniqueIndexes.indexes ≠ [])
        (fun p => p = kind.phase ∨ world.uniqueIndexes.indexes ≠ []))) s := by
  induction fuel generalizing pending reconciled intendedRows s with
  | zero =>
    have hle := hreconciled.length_le
    omega
  | succ fuel ih =>
    rw [retryStrictMutations, Prog.wp_bind]
    refine wp_tryStrictMutation hpending.source hpending.nodup hpending.ready ?_ ?_ ?_
    · intro s' hs'
      refine ⟨hs'.mono (fun _ h => h) (fun _ => Or.inl) fun _ => Or.inl, ?_, Or.inl rfl⟩
      intro k hk hnot
      rcases (hs'.rows k).2 with he | ⟨hin, -⟩
      · rw [he, hk]
      · exact absurd hin hnot
    · intro failure applied s' hquiet happlied hs'
      subst happlied
      have happlied : s.Moved source (keysOf applied)
          (fun k => keysOf (applied ++ failure.retryRows) k ∨ world.uniqueIndexes.indexes ≠ [])
          (fun p => p = kind.phase ∨ world.uniqueIndexes.indexes ≠ []) s' :=
        hs'.mono (fun _ h => h) (fun _ hk => Or.inl (keysOf_append.mpr (Or.inl hk))) fun _ => Or.inl
      rw [Prog.wp_bind]
      refine wp_mapError (Prog.wp_mono (wp_inspectUniqueOwnerConflicts hquiet) ?_ ?_)
      · rintro conflicts s₁ ⟨hs₁, hne, index, hindex, hconflicts⟩
        have hindexes : world.uniqueIndexes.indexes ≠ [] := List.ne_nil_of_mem hindex
        rw [Prog.wp_bind]
        refine Prog.wp_mono
          (wp_reconcileUniqueOwnerConflicts hquiet conflicts hreconciled.nodup) ?_ ?_
        · rintro reconciled' s₂ ⟨hs₂, hnodup, rfl⟩
          have hrepaired : s'.Repaired source s₂ := (SyncRuntime.Repaired.of_idle hs₁).trans hs₂
          have hpresent : ∀ k, (s'.working.find k).isSome = true → k ∈ keys := by
            intro k hk
            rcases (hs'.rows k).2 with he | ⟨happ, -⟩
            · exact hkeys k (he ▸ hk)
            · obtain ⟨r, hr, rfl⟩ := List.mem_map.mp happ
              exact (hwrites r (List.mem_append_left _ hr)).2
          have hprogress : 0 < conflicts.length := List.length_pos_of_ne_nil hne
          have hmoved₂ := happlied.next (hrepaired.moved.mono (fun _ h => h)
            (fun _ _ => Or.inr hindexes) fun _ _ => Or.inr hindexes)
          refine Prog.wp_mono (ih (hpending.retry hs' hrepaired) ?_ ?_ ⟨hnodup, ?_⟩ ?_) ?_ ?_
          · intro k hk
            refine hpresent k ?_
            by_contra hnone
            rw [hrepaired.shrinks k (by simpa using hnone)] at hk
            cases hk
          · exact fun r hr => hwrites r (List.mem_append_right _ hr)
          · intro x hx
            rcases List.mem_append.mp hx with hx | hx
            · obtain ⟨c, hc, rfl⟩ := List.mem_map.mp (List.mem_reverse.mp hx)
              obtain ⟨hci, hcb, hco⟩ := hconflicts c hc
              have hwrite := hwrites c.intended
                (List.mem_append_right _ (List.mem_append_left _ hcb))
              exact List.mem_product.mpr ⟨List.mem_map.mpr ⟨index, hindex, by rw [hci]⟩,
                List.mem_product.mpr ⟨hwrite.1, hpresent _ (hs₁.working ▸ hco)⟩⟩
            · exact hreconciled.subset hx
          · rw [List.length_append, List.length_reverse, List.length_map]
            omega
          · rintro _ s₃ ⟨hs₃, hfresh, -⟩
            refine ⟨(hmoved₂.next (hs₃.mono (fun _ h => h) ?_ fun _ h => h)).mono ?_
              (fun _ h => h) fun _ h => h, ?_, Or.inr hquiet⟩
            · exact fun _ hk => hk.imp_left fun h => keysOf_append.mpr (Or.inr h)
            · exact fun _ hk => (keysOf_append.mp hk).imp_left Or.inl
            · intro k hk hnot
              have happ : ¬ keysOf applied k := fun h => hnot (keysOf_append.mpr (Or.inl h))
              refine hfresh k (hrepaired.shrinks k ?_) fun h => hnot (keysOf_append.mpr (Or.inr h))
              rcases (hs'.rows k).2 with he | ⟨hin, -⟩
              · rw [he, hk]
              · exact absurd hin happ
          · intro _ s₃ hs₃
            refine hs₃.mono fun h => (hmoved₂.next (h.mono (fun _ h => h) ?_ fun _ h => h)).loosen
            exact fun _ hk => hk.imp_left fun h => keysOf_append.mpr (Or.inr h)
        · intro _ s₂ hs₂
          refine hs₂.mono fun h => (happlied.next ((SyncRuntime.Repaired.of_idle hs₁).trans h |>.moved
            |>.mono (fun _ h => h) ?_ ?_)).loosen
          · exact fun _ _ => Or.inr hindexes
          · exact fun _ _ => Or.inr hindexes
      · intro _ s₁ hs₁
        exact hs₁.mono fun h => (happlied.next h.moved).loosen
    · intro s' hs'
      exact hs'.mono (fun _ h => h) (fun _ => Or.inl) fun _ => Or.inl

/-- The keys a mutation of a kind may move: those of its rows, and any key where the table has a
secondary unique index. -/
def mayMove (world : SyncWorld) (rows : List DatabaseRow) (key : PrimaryKey) : Prop :=
  keysOf rows key ∨ world.uniqueIndexes.indexes ≠ []

/-- The kinds of statements of a phase: those it includes, and any kind where the table has a
secondary unique index. -/
def phaseKinds (world : SyncWorld) (phase kind : SyncMutationPhase) : Prop :=
  phase.includes kind = true ∨ world.uniqueIndexes.indexes ≠ []

theorem wp_verifyRows (hquiet : ¬ world.Quiet) (rows : List DatabaseRow) :
    Prog.wp (verifyRows world rows) (fun _ s' => s.Idle s') (SyncStopped world s.Idle) s := by
  refine Prog.wp_forEach (fun _ s' => s.Idle s') rows _ ?_ rfl
  intro _ expected _ s' _ hs'
  rw [Prog.wp_bind]
  refine wp_sessionOperation ?_ (hs'.trans rfl)
  unfold verifyExactRow
  split
  · exact hs'.trans rfl
  · exact ⟨by simp, hquiet, hs'.trans rfl⟩

/-- The rows of a mutation are written. -/
theorem wp_applyStrictMutations {Q : Unit → SyncRuntime → Prop} {R : SyncRuntime → Prop}
    {phase : SyncMutationPhase} (hphase : pending ≠ [] → phase.includes kind.phase = true)
    (hpending : kind.Pending source s.working pending)
    (hQ : ∀ s', s.Moved source (keysOf pending) (mayMove world pending)
      (phaseKinds world phase) s' →
      (∀ k, s.working.find k = none → ¬ keysOf pending k → s'.working.find k = none) → Q () s')
    (hR : ∀ s', s.Moved source (fun _ => False) (mayMove world pending)
      (phaseKinds world phase) s' → R s') :
    Prog.wp (applyStrictMutations world config source pending kind) Q (SyncStopped world R) s := by
  unfold applyStrictMutations
  by_cases hempty : pending.isEmpty = true
  · rw [if_pos hempty]
    have hnil : pending = [] := List.isEmpty_iff.mp hempty
    refine hQ s ((SyncRuntime.Moved.refl s).mono ?_ (fun _ h => h) fun _ h => h) fun _ h _ => h
    intro k hk
    simp [hnil, keysOf] at hk
  · have hkinds : ∀ p, p = kind.phase ∨ world.uniqueIndexes.indexes ≠ [] →
        phaseKinds world phase p := by
      rintro p (rfl | h)
      · refine Or.inl (hphase ?_)
        rintro rfl
        exact hempty rfl
      · exact Or.inr h
    rw [if_neg hempty, Prog.wp_bind, Prog.wp_reads, Prog.wp_bind]
    refine Prog.wp_mono (wp_retryStrictMutations (pending.map DatabaseRow.primaryKey)
      (s.working.rows.map DatabaseRow.primaryKey ++ pending.map DatabaseRow.primaryKey) _ hpending
      ?_ ?_ ⟨List.nodup_nil, List.nil_subset _⟩ ?_) ?_ ?_
    · exact fun k hk => List.mem_append_left _ (KeyedTable.find_isSome.mp hk)
    · intro r hr
      exact ⟨List.mem_map_of_mem hr, List.mem_append_right _ (List.mem_map_of_mem hr)⟩
    · simp only [retryBound, List.length_append, List.length_map, List.length_nil]
      omega
    · rintro intendedRows s' ⟨hmoved, hfresh, hintended⟩
      have hs' := hmoved.mono (fun _ h => h) (fun _ h => h) hkinds
      by_cases hnone : intendedRows.isEmpty = true
      · rw [if_pos hnone]
        exact hQ s' hs' hfresh
      · rw [if_neg hnone]
        have hquiet : ¬ world.Quiet := by
          rcases hintended with rfl | hquiet
          · exact absurd rfl hnone
          · exact hquiet
        refine wp_mapError (Prog.wp_mono (wp_verifyRows hquiet _) ?_ ?_)
        · intro _ s'' hs''
          refine hQ s'' ((hs'.next hs''.moved).mono (fun _ => Or.inl) (fun _ h => h) fun _ h => h) ?_
          intro k hk hnot
          rw [hs''.working]
          exact hfresh k hk hnot
        · exact fun _ s'' hs'' => hs''.mono fun h => hR s'' (hs'.next h.moved).loosen
    · exact fun _ s' hs' => hs'.mono fun h => hR s' (h.mono (fun _ h => h) (fun _ h => h) hkinds)

end Repairs

end BinlogCdc
