import BinlogCdc.Core.Result
import BinlogCdc.Sync.RepairRules

/-!
# What a strict mutation leaves

A strict mutation writes a batch of intended rows, whatever the source has meanwhile. Each
duplicate error is answered by repairs of the rows that own the values. The rounds end,
since no conflict is repaired twice; a success has every intended row in the target, and
apart from them only owners have moved, to the row that the source has for their key. This
needs intended rows that differ in their keys and in every unique index: otherwise a row
that an earlier statement wrote can be repaired away as the owner of a later one.
-/

namespace BinlogCdc

/-! ## Values in an index -/

/-- The values of a row in the columns of an index, if none is missing or NULL. -/
def SyncUniqueIndex.identity (index : SyncUniqueIndex) (row : DatabaseRow) :
    Option (List String) :=
  index.columns.mapM fun column => (row.get column).join

theorem requiredNonNullValues_eq_ok {row : DatabaseRow} {columns values : List String}
    {label : String} : requiredNonNullValues row columns label = .ok values ↔
      columns.mapM (fun column => (row.get column).join) = some values := by
  unfold requiredNonNullValues
  induction columns generalizing values with
  | nil => simp [pure, Except.pure]
  | cons column columns ih =>
    rw [List.mapM_cons, List.mapM_cons]
    cases hcell : row.get column with
    | none => simp [bind, Except.bind]
    | some cell =>
      cases cell with
      | none => simp [bind, Except.bind]
      | some value =>
        simp only [Option.join_some, bind, Except.bind, Option.bind_some]
        constructor
        · intro h
          split at h
          · cases h
          · next rest hrest =>
            cases h
            simp [ih.mp hrest]
        · intro h
          cases hrest : columns.mapM fun column => (row.get column).join with
          | none => simp [hrest] at h
          | some rest =>
            rw [hrest] at h
            cases h
            rw [ih.mpr hrest]
            rfl

theorem SyncUniqueIndex.valuesOf_eq_ok {index : SyncUniqueIndex} {row : DatabaseRow}
    {label : String} {values : List String} :
    index.valuesOf row label = .ok values ↔ index.identity row = some values :=
  requiredNonNullValues_eq_ok

theorem validateUniqueOwner_eq_ok {table : SyncTable} {index : SyncUniqueIndex}
    {intended owner : DatabaseRow} (h : validateUniqueOwner table index intended owner = .ok ()) :
    ∃ values, index.identity owner = some values ∧ index.identity intended = some values := by
  unfold validateUniqueOwner at h
  split at h
  case isTrue => cases h
  case isFalse =>
    obtain ⟨values, hintended, h⟩ := bind_eq_ok.mp h
    obtain ⟨others, howner, h⟩ := bind_eq_ok.mp h
    split at h
    case isTrue => cases h
    case isFalse hsame =>
      rw [not_not] at hsame
      subst hsame
      exact ⟨_, SyncUniqueIndex.valuesOf_eq_ok.mp howner, SyncUniqueIndex.valuesOf_eq_ok.mp hintended⟩

theorem validateUniqueOwnerConflict_eq_ok {name : String} {conflict : SyncUniqueOwnerConflict}
    {values : List String} (h : validateUniqueOwnerConflict name conflict = .ok values) :
    conflict.index.identity conflict.owner = some values ∧
      conflict.index.identity conflict.intended = some values := by
  unfold validateUniqueOwnerConflict at h
  split at h
  case isTrue => cases h
  case isFalse =>
    obtain ⟨intended, hintended, h⟩ := bind_eq_ok.mp h
    obtain ⟨owner, howner, h⟩ := bind_eq_ok.mp h
    split at h
    case isFalse => cases h
    case isTrue hsame =>
      cases h
      subst hsame
      exact ⟨SyncUniqueIndex.valuesOf_eq_ok.mp howner, SyncUniqueIndex.valuesOf_eq_ok.mp hintended⟩

theorem validateCurrentSourceOwner_eq_ok {name : String} {conflict : SyncUniqueOwnerConflict}
    {row : DatabaseRow} {values : List String}
    (h : validateCurrentSourceOwner name conflict row values = .ok ()) :
    row.primaryKey = conflict.owner.primaryKey ∧
      ∃ others, conflict.index.identity row = some others ∧ others ≠ values := by
  unfold validateCurrentSourceOwner at h
  by_cases hkey : row.primaryKey = conflict.owner.primaryKey
  · by_cases hcolumns : row.values.map Prod.fst = conflict.intended.values.map Prod.fst
    · simp only [hkey, hcolumns, ne_eq, not_true_eq_false, if_false] at h
      obtain ⟨others, hrow, h⟩ := bind_eq_ok.mp h
      split at h
      case isFalse => cases h
      case isTrue hdiffer => exact ⟨hkey, others, SyncUniqueIndex.valuesOf_eq_ok.mp hrow, hdiffer⟩
    · simp only [hkey, hcolumns, ne_eq, not_true_eq_false, not_false_eq_true, if_false, if_true] at h
      cases h
  · simp only [hkey, ne_eq, not_false_eq_true, if_true] at h
    cases h

/-- The action puts a row in the place of the owner, or nothing. -/
def SyncUniqueOwnerAction.Replaces (action : SyncUniqueOwnerAction) (owner : PrimaryKey) :
    Option DatabaseRow → Prop
  | none => action = .delete
  | some row => action = .update row ∧ row.primaryKey = owner

/-- The owner of a conflict with a plan has the values of the intended row, and the source has no row
of its key, or one with other values. -/
theorem planUniqueOwnerAction_eq_ok {name : String} {conflict : SyncUniqueOwnerConflict}
    {sourceOwner : Option DatabaseRow} {action : SyncUniqueOwnerAction}
    (h : planUniqueOwnerAction name conflict sourceOwner = .ok action) :
    ∃ values, conflict.index.identity conflict.owner = some values ∧
      conflict.index.identity conflict.intended = some values ∧
      action.Replaces conflict.owner.primaryKey sourceOwner ∧ ∀ row, sourceOwner = some row →
        ∃ others, conflict.index.identity row = some others ∧ others ≠ values := by
  obtain ⟨values, hvalid, h⟩ := bind_eq_ok.mp h
  obtain ⟨howner, hintended⟩ := validateUniqueOwnerConflict_eq_ok hvalid
  refine ⟨values, howner, hintended, ?_⟩
  cases sourceOwner with
  | none =>
    cases h
    exact ⟨rfl, nofun⟩
  | some row =>
    obtain ⟨_, hsource, h⟩ := bind_eq_ok.mp h
    cases h
    obtain ⟨hkey, hdiffers⟩ := validateCurrentSourceOwner_eq_ok hsource
    refine ⟨⟨rfl, hkey⟩, ?_⟩
    rintro _ ⟨⟩
    exact hdiffers

/-- The rows of a batch differ in their keys and in every unique index. -/
structure BatchDistinct (indexes : List SyncUniqueIndex) (rows : List DatabaseRow) : Prop where
  /-- The keys are different. -/
  keys : (rows.map DatabaseRow.primaryKey).Nodup
  /-- Rows with the same values in an index are one row. -/
  identities : ∀ index ∈ indexes, ∀ r ∈ rows, ∀ r' ∈ rows, ∀ values,
    index.identity r = some values → index.identity r' = some values → r = r'

section OwnerRepair

variable [LinearOrder PrimaryKey] {world : SyncWorld} {source start : SyncRows} {α : Type}
  {config : SyncChunkConfig} {table : SyncTable} {s : SyncRuntime}

/-! ## Stops -/

/-- The program stops within the bounds of its loops. -/
def Halts (stop : SyncStop) (_ : SyncRuntime) : Prop := stop ≠ .diverged

theorem wp_sessionOperation_halts {answer : SyncRuntime → α} {effect : SyncRuntime → SyncRuntime}
    {Q : α → SyncRuntime → Prop} (hQ : Q (answer s) (effect s.ticked)) :
    Prog.wp (sessionOperation world answer effect) Q Halts s := by
  unfold Prog.wp sessionOperation
  cases world.outcome s.tick with
  | done => exact hQ
  | refused message => rintro ⟨⟩
  | crashed => rintro ⟨⟩

theorem wp_decided_halts {result : Except String α} {Q : α → SyncRuntime → Prop}
    (hok : ∀ a, result = .ok a → Q a s) : Prog.wp (Sync.decided result) Q Halts s := by
  cases result with
  | ok a => exact hok a rfl
  | error message => rintro ⟨⟩

theorem wp_mapError_halts {c : Sync α} {text : String → String} {Q : α → SyncRuntime → Prop}
    (h : Prog.wp c Q Halts s) : Prog.wp (c.mapError text) Q Halts s := by
  unfold Sync.mapError Sync.onError
  rw [Prog.wp_onFailure]
  refine Prog.wp_mono h (fun _ _ h => h) fun stop s' hstop => ?_
  cases stop with
  | error message => rintro ⟨⟩
  | crash => rintro ⟨⟩
  | diverged => exact hstop

/-- A statement: it has its effect and matched its rows, it had an effect on other rows, or it had
none. -/
theorem wp_executeStatement_halts {mutation : SyncMutation} {effect : StatementEffect}
    {expected : Nat} {Q : Except StatementFailure Unit → SyncRuntime → Prop}
    (hok : ∀ rows, effect s.working = some (expected, rows) →
      Q (.ok ()) (s.mutated mutation rows))
    (hother : ∀ message s', Q (.error (none, message)) s')
    (hidle : ∀ failure, Q (.error failure) s.ticked) :
    Prog.wp (executeStatement world table mutation effect expected) Q Halts s := by
  unfold Prog.wp executeStatement
  cases world.statement s.tick with
  | crashed => rintro ⟨⟩
  | refused code message => exact hidle _
  | executed =>
    cases heffect : effect s.working with
    | none => exact hidle _
    | some result =>
      obtain ⟨matched, rows⟩ := result
      by_cases hmatched : matched = expected
      · subst hmatched
        simp only [if_pos]
        exact hok rows heffect
      · simp only [if_neg hmatched]
        exact hother _ _

/-! ## The state of the target between the rounds -/

/-- The row of a key had values of an intended row in an index, and the source has no row of the
key, or one with other values. -/
def UniqueOwner (indexes : List SyncUniqueIndex) (rows : List DatabaseRow) (source start : SyncRows)
    (key : PrimaryKey) : Prop :=
  ∃ index ∈ indexes, ∃ intended ∈ rows, ∃ owner values, start.find key = some owner ∧
    index.identity owner = some values ∧ index.identity intended = some values ∧
    ∀ row, source.find key = some row →
      ∃ others, index.identity row = some others ∧ others ≠ values

/-- The target while a batch is written: no key is new but for those of the batch, the rows written
so far are there, and of the other rows only owners have moved. -/
structure Applying (indexes : List SyncUniqueIndex) (rows : List DatabaseRow)
    (source start : SyncRows) (done : List DatabaseRow) (target : SyncRows) : Prop where
  /-- No key is new but for those of the batch. -/
  present : ∀ k, (target.find k).isSome = true → (start.find k).isSome = true ∨ keysOf rows k
  /-- The rows written so far are there. -/
  stored : BatchDistinct indexes rows → ∀ r ∈ done, target.find r.primaryKey = some r
  /-- Only owners have moved, to their source row. -/
  others : BatchDistinct indexes rows → ∀ k, ¬ keysOf rows k → target.find k = start.find k ∨
    UniqueOwner indexes rows source start k ∧ target.find k = source.find k

variable {indexes : List SyncUniqueIndex} {rows done : List DatabaseRow} {target : SyncRows}

theorem Applying.initial : Applying indexes rows source start [] start where
  present _ hk := Or.inl hk
  stored _ _ hr := by cases hr
  others _ _ _ := Or.inl rfl

/-- One more part of the batch is written. -/
theorem Applying.putAll {batch rest : List DatabaseRow}
    (h : Applying indexes rows source start done target) (hrows : rows = done ++ batch ++ rest) :
    Applying indexes rows source start (done ++ batch) (target.putAll batch) where
  present k hk := by
    by_cases hmem : k ∈ batch.map DatabaseRow.primaryKey
    · refine Or.inr ?_
      rw [hrows, keysOf_append, keysOf_append]
      exact Or.inl (Or.inr hmem)
    · rw [KeyedTable.find_putAll_of_notMem hmem] at hk
      exact h.present k hk
  stored hdistinct r hr := by
    have hnodup := hdistinct.keys
    rw [hrows, List.map_append, List.map_append, List.nodup_append, List.nodup_append] at hnodup
    obtain ⟨⟨-, hbatch, hdisjoint⟩, -, -⟩ := hnodup
    rcases List.mem_append.mp hr with hr | hr
    · have hmem : r.primaryKey ∉ batch.map DatabaseRow.primaryKey := fun hmem =>
        hdisjoint _ (List.mem_map_of_mem hr) _ hmem rfl
      rw [KeyedTable.find_putAll_of_notMem hmem]
      exact h.stored hdistinct r hr
    · exact KeyedTable.find_putAll_of_mem hbatch hr
  others hdistinct k hk := by
    have hmem : k ∉ batch.map DatabaseRow.primaryKey := fun hmem => by
      refine hk ?_
      rw [hrows, keysOf_append, keysOf_append]
      exact Or.inl (Or.inr hmem)
    rw [KeyedTable.find_putAll_of_notMem hmem]
    exact h.others hdistinct k hk

/-- A batch that matched its rows is written as a whole. -/
theorem MutationKind.effect_matched {kind : MutationKind} {batch : List DatabaseRow}
    {written : SyncRows} (h : kind.effect batch target = some (batch.length, written)) :
    written = target.putAll batch := by
  cases kind with
  | insert =>
    simp only [MutationKind.effect, insertEffect] at h
    split at h
    · cases h
      rfl
    · cases h
  | update =>
    simp only [MutationKind.effect, updateEffect, Option.some.injEq, Prod.mk.injEq] at h
    obtain ⟨hlength, rfl⟩ := h
    rw [List.filter_eq_self.mpr (List.length_filter_eq_length_iff.mp hlength)]

/-! ## Statements -/

variable {kind : MutationKind}

/-- The batches of a mutation: a success has written all of them, and a duplicate error those
before the failed one. -/
theorem wp_executeMutationBatches_applying (chunks : List (List DatabaseRow))
    {done : List DatabaseRow} {s : SyncRuntime}
    (h : Applying indexes rows source start done s.working) (hrows : rows = done ++ chunks.flatten) :
    Prog.wp (executeMutationBatches world table kind.mutation kind.effect chunks)
      (fun result s' => match result with
        | .ok () => Applying indexes rows source start rows s'.working
        | .error failure => failure.mysqlCode = some 1062 → ∃ applied,
            rows = applied ++ failure.retryRows ∧
            Applying indexes rows source start applied s'.working) Halts s := by
  induction chunks generalizing done s with
  | nil =>
    have hdone : done = rows := by simpa using hrows.symm
    exact hdone ▸ h
  | cons batch rest ih =>
    rw [List.flatten_cons, ← List.append_assoc] at hrows
    rw [executeMutationBatches, Prog.wp_bind]
    refine wp_executeStatement_halts ?_ ?_ ?_
    · intro written hwritten
      have hput := h.putAll hrows
      rw [← MutationKind.effect_matched hwritten] at hput
      exact ih hput hrows
    · intro message s' hcode
      cases hcode
    · rintro ⟨code, message⟩ _
      refine ⟨done, ?_, h⟩
      rw [hrows, List.append_assoc]
      rfl

/-- A mutation: all rows are written, or a duplicate error stopped it after some of them. -/
theorem wp_tryStrictMutation_applying {pending : List DatabaseRow} {s : SyncRuntime}
    (h : Applying indexes rows source start done s.working) (hrows : rows = done ++ pending) :
    Prog.wp (tryStrictMutation world config pending kind)
      (fun failure s' => match failure with
        | none => Applying indexes rows source start rows s'.working
        | some failure => ∃ applied, rows = applied ++ failure.retryRows ∧
            Applying indexes rows source start applied s'.working) Halts s := by
  have hbatches : ∀ capacity, 0 < capacity → ∀ operation : String,
      Prog.wp (executeMutationBatches world config.table kind.mutation kind.effect
          (batches capacity pending.length pending))
        (fun result s' => Prog.wp (match result with
          | .ok () => pure none
          | .error failure =>
            if failure.mysqlCode = some 1062 then pure (some failure)
            else Prog.fail (.error s!"{operation} `{config.table.name}`: {failure.message}"))
          (fun failure s' => match failure with
            | none => Applying indexes rows source start rows s'.working
            | some failure => ∃ applied, rows = applied ++ failure.retryRows ∧
                Applying indexes rows source start applied s'.working) Halts s') Halts s := by
    intro capacity hcapacity operation
    have hflatten := batches_flatten hcapacity pending.length pending le_rfl
    refine Prog.wp_mono (wp_executeMutationBatches_applying _ h (hflatten.symm ▸ hrows)) ?_
      fun _ _ h => h
    intro result s' hresult
    cases result with
    | ok _ => exact hresult
    | error failure =>
      dsimp only
      split
      case isTrue hcode => exact hresult hcode
      case isFalse => rintro ⟨⟩
  unfold tryStrictMutation
  cases kind with
  | insert =>
    simp only [Prog.wp_bind, Prog.wp_pure, insertRows]
    exact hbatches _ (boundedMutationCapacity_pos _) _
  | update =>
    simp only [Prog.wp_bind, Prog.wp_pure, updateRows]
    exact hbatches _ (boundedMutationCapacity_pos _) _

/-! ## Inspection -/

/-- A conflict as it is found: a row of the target with another key has the values of a row of the
batch. -/
structure SyncUniqueOwnerConflict.Found (conflict : SyncUniqueOwnerConflict)
    (indexes : List SyncUniqueIndex) (batch : List DatabaseRow) (target : SyncRows) : Prop where
  /-- The index is one of the table. -/
  index : conflict.index ∈ indexes
  /-- The intended row is one of the batch. -/
  intended : conflict.intended ∈ batch
  /-- The owner is a row of the target. -/
  owner : target.find conflict.owner.primaryKey = some conflict.owner
  /-- It has another key. -/
  other : conflict.owner.primaryKey ≠ conflict.intended.primaryKey
  /-- It has the same values. -/
  values : ∃ values, conflict.index.identity conflict.owner = some values ∧
    conflict.index.identity conflict.intended = some values

theorem SyncUniqueOwnerConflict.Found.mono {conflict : SyncUniqueOwnerConflict}
    {batch batch' : List DatabaseRow} (h : conflict.Found indexes batch target)
    (hbatch : ∀ r ∈ batch, r ∈ batch') : conflict.Found indexes batch' target :=
  ⟨h.index, hbatch _ h.intended, h.owner, h.other, h.values⟩

/-- One row is decoded from the list of that row. -/
theorem decodeOptionalExactRow_eq_some {rows : List DatabaseRow} {row : DatabaseRow}
    {endpoint : String} (h : decodeOptionalExactRow table rows endpoint = .ok (some row)) :
    rows = [row] := by
  cases rows with
  | nil => cases h
  | cons first rest =>
    cases rest with
    | nil =>
      cases h
      rfl
    | cons second rest => cases h

/-- The owner found is a row of the target, and the query leaves the target as it is. -/
theorem wp_queryUniqueOwner_halts {index : SyncUniqueIndex} {intended : DatabaseRow} :
    Prog.wp (queryUniqueOwner world table index intended)
      (fun owner s' => s'.working = s.working ∧ ∀ row ∈ owner, row ∈ s.working.rows) Halts s := by
  unfold queryUniqueOwner
  split
  case isTrue => rintro ⟨⟩
  case isFalse =>
    simp only [Prog.wp_bind]
    refine wp_decided_halts fun _ _ => ?_
    refine wp_sessionOperation_halts ?_
    refine wp_decided_halts fun owner howner => ⟨rfl, fun row hrow => ?_⟩
    cases hrow
    have hmem : row ∈ (s.working.rows.filter
        (world.uniqueIndexes.sameIdentity index intended)).take 2 := by
      rw [decodeOptionalExactRow_eq_some howner]
      exact List.mem_singleton.mpr rfl
    exact List.mem_of_mem_filter (List.mem_of_mem_take hmem)

theorem wp_uniqueOwnerConflicts_found {index : SyncUniqueIndex}
    (hindex : index ∈ indexes) (batch : List DatabaseRow) {owners : List PrimaryKey}
    {s : SyncRuntime} :
    Prog.wp (uniqueOwnerConflicts world table index batch owners)
      (fun conflicts s' => s'.working = s.working ∧
        ∀ c ∈ conflicts, c.Found indexes batch s.working) Halts s := by
  induction batch generalizing owners s with
  | nil => exact ⟨rfl, fun c hc => by cases hc⟩
  | cons intended rest ih =>
    have hskip : ∀ s' owners, s'.working = s.working →
        Prog.wp (uniqueOwnerConflicts world table index rest owners)
          (fun conflicts s'' => s''.working = s.working ∧
            ∀ c ∈ conflicts, c.Found indexes (intended :: rest) s.working) Halts s' := by
      intro s' owners hs'
      refine Prog.wp_mono ih ?_ fun _ _ h => h
      rintro conflicts s'' ⟨hs'', hconflicts⟩
      rw [hs'] at hs'' hconflicts
      exact ⟨hs'', fun c hc => (hconflicts c hc).mono fun _ => List.mem_cons_of_mem _⟩
    rw [uniqueOwnerConflicts, Prog.wp_bind]
    refine Prog.wp_mono wp_queryUniqueOwner_halts ?_ fun _ _ h => h
    rintro owner s' ⟨hs', howner⟩
    cases owner with
    | none => exact hskip s' owners hs'
    | some owner =>
      dsimp only
      split
      case isTrue => exact hskip s' owners hs'
      case isFalse hother =>
        rw [Prog.wp_bind]
        refine wp_decided_halts fun _ hvalid => ?_
        split
        case isTrue => rintro ⟨⟩
        case isFalse =>
          rw [Prog.wp_bind]
          refine Prog.wp_mono (hskip s' _ hs') ?_ fun _ _ h => h
          rintro conflicts s'' ⟨hs'', hconflicts⟩
          refine ⟨hs'', List.forall_mem_cons.mpr ⟨?_, hconflicts⟩⟩
          exact ⟨hindex, List.mem_cons_self, KeyedTable.find_key (howner owner rfl), hother,
            validateUniqueOwner_eq_ok hvalid⟩

/-- The conflicts found, at least one. -/
theorem wp_inspectUniqueOwnerConflicts_found {failure : SyncMutationFailure} :
    Prog.wp (inspectUniqueOwnerConflicts world table failure)
      (fun conflicts s' => s'.working = s.working ∧ conflicts ≠ [] ∧
        ∀ c ∈ conflicts, c.Found world.uniqueIndexes.indexes failure.failedBatch s.working)
      Halts s := by
  unfold inspectUniqueOwnerConflicts
  split
  case isTrue => rintro ⟨⟩
  case isFalse =>
    unfold loadUniqueIndex
    simp only [Prog.wp_bind]
    refine wp_sessionOperation_halts ?_
    refine wp_decided_halts fun index hindex => ?_
    refine Prog.wp_mono (wp_uniqueOwnerConflicts_found (world.uniqueIndexes.resolved _ _ hindex) _)
      ?_ fun _ _ h => h
    rintro conflicts s' ⟨hs', hconflicts⟩
    split
    case isTrue => rintro ⟨⟩
    case isFalse hnonempty =>
      refine ⟨hs', ?_, hconflicts⟩
      rintro rfl
      exact hnonempty rfl

/-! ## Repairs -/

/-- The row found is the row expected. -/
theorem wp_verifyExactRow_halts {actual expected : Option DatabaseRow} {label : String}
    {Q : Unit → SyncRuntime → Prop} (h : actual = expected → Q () s) :
    Prog.wp (verifyExactRow actual expected label) Q Halts s := by
  unfold verifyExactRow
  split
  case isTrue heq => exact h heq
  case isFalse => rintro ⟨⟩

/-- The row of the owner becomes the one of the source. -/
theorem wp_reconcileUniqueOwner_halts {conflict : SyncUniqueOwnerConflict}
    {action : SyncUniqueOwnerAction} {replacement : Option DatabaseRow}
    (haction : action.Replaces conflict.owner.primaryKey replacement) :
    Prog.wp (reconcileUniqueOwner world table conflict action)
      (fun _ s' => ∀ k, s'.working.find k =
        if k = conflict.owner.primaryKey then replacement else s.working.find k) Halts s := by
  have hverified : ∀ s₁ : SyncRuntime, (∀ k, s₁.working.find k =
      if k = conflict.owner.primaryKey then replacement else s.working.find k) →
      ∀ expected label (finish : Option DatabaseRow → Sync Unit), finish none = pure () →
      (∀ row, ∃ message, finish (some row) = Prog.fail (.error message)) → Prog.wp (do
        verifyExactRow (← queryExactRow world conflict.owner.primaryKey) expected label
        finish (← queryUniqueOwner world table conflict.index conflict.intended))
        (fun _ s' => ∀ k, s'.working.find k =
          if k = conflict.owner.primaryKey then replacement else s.working.find k) Halts s₁ := by
    intro s₁ hs₁ expected label finish hnone hsome
    simp only [Prog.wp_bind]
    refine wp_sessionOperation_halts ?_
    refine wp_verifyExactRow_halts fun _ => ?_
    refine Prog.wp_mono wp_queryUniqueOwner_halts ?_ fun _ _ h => h
    rintro owner s₂ ⟨hs₂, -⟩
    cases owner with
    | none =>
      rw [hnone, Prog.wp_pure]
      intro k
      rw [hs₂]
      exact hs₁ k
    | some row =>
      obtain ⟨message, hmessage⟩ := hsome row
      rw [hmessage]
      rintro ⟨⟩
  cases replacement with
  | none =>
    obtain rfl : action = .delete := haction
    have hbatches : batches (strictDeleteBatchCapacity table) [conflict.owner.primaryKey].length
        [conflict.owner.primaryKey] = [[conflict.owner.primaryKey]] :=
      batches_singleton (boundedMutationCapacity_pos _) _
    unfold reconcileUniqueOwner deleteRows
    rw [hbatches]
    simp only [Prog.forEach, Prog.wp_bind, Prog.wp_pure]
    refine wp_executeStatement_halts ?_ ?_ ?_
    · intro rows hrows
      have herased : rows = s.working.erase [conflict.owner.primaryKey] := by
        simp only [deleteEffect, Option.some.injEq, Prod.mk.injEq] at hrows
        exact hrows.2.symm
      have hfind : ∀ k, (s.mutated (.deleted [conflict.owner.primaryKey]) rows).working.find k =
          if k = conflict.owner.primaryKey then none else s.working.find k := by
        intro k
        change rows.find k = _
        rw [herased, KeyedTable.find_erase]
        simp
      have hrest := hverified _ hfind none "deleted unique owner"
      simp only [Prog.wp_bind] at hrest
      exact hrest _ rfl fun _ => ⟨_, rfl⟩
    · rintro _ _ ⟨⟩
    · rintro _ ⟨⟩
  | some row =>
    obtain ⟨rfl, hkey⟩ := haction
    have hbatches : batches (strictUpdateBatchCapacity table) [row].length [row] = [[row]] :=
      batches_singleton (boundedMutationCapacity_pos _) row
    unfold reconcileUniqueOwner updateRows
    dsimp only
    rw [hbatches]
    simp only [executeMutationBatches, Prog.wp_bind]
    refine wp_executeStatement_halts ?_ ?_ ?_
    · intro rows hrows
      have hupdate : MutationKind.update.effect [row] s.working = some ([row].length, rows) := hrows
      have hput : rows = s.working.putAll [row] := MutationKind.effect_matched hupdate
      have hfind : ∀ k, (s.mutated (.updated [row]) rows).working.find k =
          if k = conflict.owner.primaryKey then some row else s.working.find k := by
        intro k
        change rows.find k = _
        rw [hput, ← hkey]
        by_cases hk : k = row.primaryKey <;> simp [KeyedTable.putAll, KeyedTable.find_put, hk]
      exact hverified _ hfind (some row) "updated unique owner" _ rfl fun _ => ⟨_, rfl⟩
    · rintro _ _ ⟨⟩
    · rintro _ ⟨⟩

/-- The source has a row for the owner with the values of the intended row. -/
def SyncUniqueOwnerConflict.Legitimate (conflict : SyncUniqueOwnerConflict) (source : SyncRows) :
    Prop :=
  ∃ row, source.find conflict.owner.primaryKey = some row ∧
    conflict.index.identity row = conflict.index.identity conflict.intended

/-- An owner that was found and has a plan is brought to its source row. It is no row that was
written before, since these differ from the intended row in the index. -/
theorem Applying.repair {found written : SyncRows} {conflict : SyncUniqueOwnerConflict}
    (h : Applying indexes rows source start done target)
    (hfound : Applying indexes rows source start done found)
    (hconflict : conflict.Found indexes rows found) (hdone : ∀ r ∈ done, r ∈ rows)
    (hplan : ∀ values, conflict.index.identity conflict.intended = some values →
      ∀ row, source.find conflict.owner.primaryKey = some row →
        ∃ others, conflict.index.identity row = some others ∧ others ≠ values)
    (hwritten : ∀ k, written.find k = if k = conflict.owner.primaryKey then
      source.find conflict.owner.primaryKey else target.find k) :
    Applying indexes rows source start done written where
  present k hk := by
    by_cases hkey : k = conflict.owner.primaryKey
    · refine hfound.present k ?_
      rw [hkey, hconflict.owner]
      rfl
    · rw [hwritten k, if_neg hkey] at hk
      exact h.present k hk
  stored hdistinct r hr := by
    have hkey : r.primaryKey ≠ conflict.owner.primaryKey := fun hkey => by
      have hrow := hfound.stored hdistinct r hr
      rw [hkey, hconflict.owner] at hrow
      obtain rfl := Option.some.inj hrow
      obtain ⟨values, howner, hintended⟩ := hconflict.values
      have hsame := hdistinct.identities _ hconflict.index _ (hdone _ hr) _ hconflict.intended values
        howner hintended
      exact hconflict.other (congrArg DatabaseRow.primaryKey hsame)
    rw [hwritten, if_neg hkey]
    exact h.stored hdistinct r hr
  others hdistinct k hk := by
    by_cases hkey : k = conflict.owner.primaryKey
    · rw [hwritten k, if_pos hkey, ← hkey]
      refine Or.inr ⟨?_, rfl⟩
      rcases hfound.others hdistinct k hk with hsame | ⟨howner, -⟩
      · obtain ⟨values, howner, hintended⟩ := hconflict.values
        refine ⟨conflict.index, hconflict.index, conflict.intended, hconflict.intended,
          conflict.owner, values, ?_, howner, hintended, ?_⟩
        · rw [← hsame, hkey, hconflict.owner]
        · rw [hkey]
          exact hplan values hintended
      · exact howner
    · rw [hwritten k, if_neg hkey]
      exact h.others hdistinct k hk

/-- One conflict is repaired; it was not repaired before and is not legitimate. -/
theorem wp_reconcileUniqueOwnerConflict_applying {found : SyncRows}
    {conflict : SyncUniqueOwnerConflict} {reconciled : List RepairKey} {s : SyncRuntime}
    (h : Applying indexes rows source start done s.working)
    (hfound : Applying indexes rows source start done found)
    (hconflict : conflict.Found indexes rows found) (hdone : ∀ r ∈ done, r ∈ rows) :
    Prog.wp (reconcileUniqueOwnerConflict world config source reconciled conflict)
      (fun _ s' => Applying indexes rows source start done s'.working ∧
        conflict.repairKey ∉ reconciled) Halts s := by
  unfold reconcileUniqueOwnerConflict
  split
  case isTrue => rintro ⟨⟩
  case isFalse hnew =>
    rw [Prog.wp_bind]
    refine wp_mapError_halts (wp_sessionOperation_halts ?_)
    rw [Prog.wp_bind]
    refine wp_decided_halts fun action haction => ?_
    obtain ⟨values, -, hintended, hreplaces, hdiffers⟩ := planUniqueOwnerAction_eq_ok haction
    refine wp_mapError_halts (Prog.wp_mono (wp_reconcileUniqueOwner_halts hreplaces) ?_
      fun _ _ h => h)
    intro _ s' hwritten
    refine ⟨h.repair hfound hconflict hdone (fun others hothers => ?_) hwritten, hnew⟩
    obtain rfl : values = others := Option.some.inj (hintended.symm.trans hothers)
    exact hdiffers

theorem wp_reconcileUniqueOwnerConflicts_applying {found : SyncRows}
    (hfound : Applying indexes rows source start done found) (hdone : ∀ r ∈ done, r ∈ rows)
    (conflicts : List SyncUniqueOwnerConflict)
    (hconflicts : ∀ c ∈ conflicts, c.Found indexes rows found) {reconciled : List RepairKey}
    (hnodup : reconciled.Nodup) {s : SyncRuntime}
    (h : Applying indexes rows source start done s.working) :
    Prog.wp (reconcileUniqueOwnerConflicts world config source reconciled conflicts)
      (fun reconciled' s' => Applying indexes rows source start done s'.working ∧
        reconciled'.Nodup ∧
        reconciled' = (conflicts.map SyncUniqueOwnerConflict.repairKey).reverse ++ reconciled)
      Halts s := by
  induction conflicts generalizing reconciled s with
  | nil => exact ⟨h, hnodup, rfl⟩
  | cons conflict rest ih =>
    obtain ⟨hconflict, hrest⟩ := List.forall_mem_cons.mp hconflicts
    rw [reconcileUniqueOwnerConflicts, Prog.wp_bind]
    refine Prog.wp_mono
      (wp_reconcileUniqueOwnerConflict_applying h hfound hconflict hdone) ?_ fun _ _ h => h
    rintro _ s' ⟨h', hnew⟩
    refine Prog.wp_mono (ih hrest (List.nodup_cons.mpr ⟨hnew, hnodup⟩) h') ?_ fun _ _ h => h
    rintro reconciled' s'' ⟨h'', hnodup', rfl⟩
    refine ⟨h'', hnodup', ?_⟩
    rw [List.map_cons, List.reverse_cons, List.append_assoc, List.singleton_append]

/-! ## Rounds -/

/-- The rounds of a mutation end, and a success has written the whole batch. -/
theorem wp_retryStrictMutations_applying (keys : List PrimaryKey) (fuel : Nat)
    {pending : List DatabaseRow} {reconciled : List RepairKey} {intendedRows : List DatabaseRow}
    {s : SyncRuntime}
    (h : Applying world.uniqueIndexes.indexes rows source start done s.working)
    (hrows : rows = done ++ pending)
    (hkeys : ∀ k, (start.find k).isSome = true ∨ keysOf rows k → k ∈ keys)
    (hreconciled : Reconciled world.uniqueIndexes.indexes (rows.map DatabaseRow.primaryKey) keys
      reconciled)
    (hfuel : world.uniqueIndexes.indexes.length * (rows.length * keys.length) <
      fuel + reconciled.length) :
    Prog.wp (retryStrictMutations world config source kind fuel pending reconciled intendedRows)
      (fun _ s' => Applying world.uniqueIndexes.indexes rows source start rows s'.working) Halts
      s := by
  induction fuel generalizing pending done reconciled intendedRows s with
  | zero =>
    have hle := hreconciled.length_le
    rw [List.length_map] at hle
    omega
  | succ fuel ih =>
    rw [retryStrictMutations, Prog.wp_bind]
    refine Prog.wp_mono (wp_tryStrictMutation_applying h hrows) ?_ fun _ _ h => h
    intro failure s₁ hresult
    cases failure with
    | none => exact hresult
    | some failure =>
      obtain ⟨applied, happlied, h₁⟩ := hresult
      dsimp only
      rw [Prog.wp_bind]
      refine wp_mapError_halts (Prog.wp_mono wp_inspectUniqueOwnerConflicts_found ?_ fun _ _ h => h)
      rintro conflicts s₂ ⟨hs₂, hne, hconflicts⟩
      have hbatch : ∀ r ∈ failure.failedBatch, r ∈ rows := by
        intro r hr
        rw [happlied]
        exact List.mem_append_right _ (List.mem_append_left _ hr)
      have hfound : ∀ c ∈ conflicts, c.Found world.uniqueIndexes.indexes rows s₁.working :=
        fun c hc => (hconflicts c hc).mono hbatch
      have hdone : ∀ r ∈ applied, r ∈ rows := by
        intro r hr
        rw [happlied]
        exact List.mem_append_left _ hr
      rw [Prog.wp_bind]
      refine Prog.wp_mono (wp_reconcileUniqueOwnerConflicts_applying h₁ hdone conflicts hfound
        hreconciled.nodup (hs₂.symm ▸ h₁)) ?_ fun _ _ h => h
      rintro reconciled' s₃ ⟨h₃, hnodup, rfl⟩
      have hprogress : 0 < conflicts.length := List.length_pos_of_ne_nil hne
      refine ih h₃ happlied ⟨hnodup, ?_⟩ ?_
      · intro x hx
        rcases List.mem_append.mp hx with hx | hx
        · obtain ⟨c, hc, rfl⟩ := List.mem_map.mp (List.mem_reverse.mp hx)
          have hcfound := hfound c hc
          have howner : (s₁.working.find c.owner.primaryKey).isSome = true := by
            rw [hcfound.owner]
            rfl
          exact List.mem_product.mpr ⟨List.mem_map_of_mem hcfound.index, List.mem_product.mpr
            ⟨List.mem_map_of_mem hcfound.intended, hkeys _ (h₁.present _ howner)⟩⟩
        · exact hreconciled.subset hx
      · rw [List.length_append, List.length_reverse, List.length_map]
        omega

theorem wp_verifyRows_halts (rows : List DatabaseRow) :
    Prog.wp (verifyRows world rows) (fun _ s' => s'.working = s.working) Halts s := by
  refine Prog.wp_forEach (fun _ (s' : SyncRuntime) => s'.working = s.working) rows _ ?_ rfl
  intro _ expected _ s' _ hs'
  rw [Prog.wp_bind]
  exact wp_sessionOperation_halts (wp_verifyExactRow_halts fun _ => hs')

theorem wp_applyStrictMutations_applying :
    Prog.wp (applyStrictMutations world config source rows kind)
      (fun _ s' => Applying world.uniqueIndexes.indexes rows source s.working rows s'.working)
      Halts s := by
  unfold applyStrictMutations
  split
  case isTrue hempty =>
    rw [List.isEmpty_iff.mp hempty]
    exact Applying.initial
  case isFalse =>
    rw [Prog.wp_bind, Prog.wp_reads, Prog.wp_bind]
    refine Prog.wp_mono (wp_retryStrictMutations_applying
      (s.working.rows.map DatabaseRow.primaryKey ++ rows.map DatabaseRow.primaryKey) _
      Applying.initial (List.nil_append rows).symm ?_ ⟨List.nodup_nil, List.nil_subset _⟩ ?_) ?_
      fun _ _ h => h
    · rintro k (hk | hk)
      · exact List.mem_append_left _ (KeyedTable.find_isSome.mp hk)
      · exact List.mem_append_right _ hk
    · simp only [retryBound, List.length_append, List.length_map, List.length_nil]
      omega
    · intro intendedRows s' h
      split
      case isTrue => exact h
      case isFalse =>
        refine wp_mapError_halts (Prog.wp_mono (wp_verifyRows_halts _) ?_ fun _ _ h => h)
        intro _ s'' hs''
        rw [hs'']
        exact h

/-- There is no plan for a legitimate owner. -/
theorem planUniqueOwnerAction_ne_ok {name : String} {conflict : SyncUniqueOwnerConflict}
    (hlegitimate : conflict.Legitimate source) (action : SyncUniqueOwnerAction) :
    planUniqueOwnerAction name conflict (source.find conflict.owner.primaryKey) ≠ .ok action := by
  intro h
  obtain ⟨row, hrow, hidentity⟩ := hlegitimate
  obtain ⟨values, -, hintended, -, hdiffers⟩ := planUniqueOwnerAction_eq_ok h
  obtain ⟨others, hothers, hne⟩ := hdiffers row hrow
  rw [hidentity, hintended] at hothers
  exact hne (Option.some.inj hothers).symm

/-- Conflicts with a legitimate owner among them are not repaired. -/
theorem wp_reconcileUniqueOwnerConflicts_legitimate (conflicts : List SyncUniqueOwnerConflict)
    (hlegitimate : ∃ c ∈ conflicts, c.Legitimate source) {reconciled : List RepairKey}
    {s : SyncRuntime} :
    Prog.wp (reconcileUniqueOwnerConflicts world config source reconciled conflicts)
      (fun _ _ => False) Halts s := by
  have hone : ∀ (conflict : SyncUniqueOwnerConflict) (reconciled : List RepairKey)
      (s : SyncRuntime), Prog.wp (reconcileUniqueOwnerConflict world config source reconciled conflict)
        (fun _ _ => ¬ conflict.Legitimate source) Halts s := by
    intro conflict reconciled s
    unfold reconcileUniqueOwnerConflict
    split
    case isTrue => rintro ⟨⟩
    case isFalse =>
      rw [Prog.wp_bind]
      refine wp_mapError_halts (wp_sessionOperation_halts ?_)
      rw [Prog.wp_bind]
      refine wp_decided_halts fun action haction => ?_
      obtain ⟨-, -, -, hreplaces, -⟩ := planUniqueOwnerAction_eq_ok haction
      refine wp_mapError_halts (Prog.wp_mono (wp_reconcileUniqueOwner_halts hreplaces) ?_
        fun _ _ h => h)
      intro _ _ _ hlegitimate
      exact planUniqueOwnerAction_ne_ok hlegitimate action haction
  induction conflicts generalizing reconciled s with
  | nil =>
    obtain ⟨c, hc, -⟩ := hlegitimate
    cases hc
  | cons conflict rest ih =>
    rw [reconcileUniqueOwnerConflicts, Prog.wp_bind]
    refine Prog.wp_mono (hone conflict reconciled s) ?_ fun _ _ h => h
    intro _ s' hnot
    refine ih ?_
    obtain ⟨c, hc, hc'⟩ := hlegitimate
    rcases List.mem_cons.mp hc with rfl | hc
    · exact absurd hc' hnot
    · exact ⟨c, hc, hc'⟩

/-- A round that meets a legitimate owner ends the mutation with an error. -/
theorem retryStrictMutations_legitimate {fuel : Nat} {pending : List DatabaseRow}
    {reconciled : List RepairKey} {intendedRows : List DatabaseRow} {s s₁ s₂ : SyncRuntime}
    {failure : SyncMutationFailure} {conflicts : List SyncUniqueOwnerConflict}
    (htry : tryStrictMutation world config pending kind s = (.ok (some failure), s₁))
    (hinspect : inspectUniqueOwnerConflicts world config.table failure s₁ = (.ok conflicts, s₂))
    (hlegitimate : ∃ c ∈ conflicts, c.Legitimate source) :
    Prog.wp (retryStrictMutations world config source kind (fuel + 1) pending reconciled
      intendedRows) (fun _ _ => False) Halts s := by
  rw [retryStrictMutations, Prog.wp_bind, Prog.wp, htry]
  dsimp only
  rw [Prog.wp_bind]
  refine wp_mapError_halts ?_
  rw [Prog.wp, hinspect]
  dsimp only
  rw [Prog.wp_bind]
  refine Prog.wp_mono (wp_reconcileUniqueOwnerConflicts_legitimate conflicts hlegitimate) ?_
    fun _ _ h => h
  exact fun _ _ h => h.elim

end OwnerRepair

/-! ## Rows that share an address -/

section SharedAddress

/-- Keys in the order of their texts. -/
local instance userOrder : LinearOrder PrimaryKey :=
  LinearOrder.lift' PrimaryKey.values PrimaryKey.values_injective

/-- The addresses of users are unique. -/
def emailIndex : SyncUniqueIndex := ⟨"email", ["email"]⟩

/-- A user with a name of so many letters. -/
def userRow (letters : Nat) (email : Option String) : DatabaseRow :=
  let name := String.ofList (List.replicate letters 'u')
  ⟨⟨[name]⟩, [("name", some name), ("email", email)]⟩

/-- The sync of users. -/
def usersConfig : SyncChunkConfig where
  runId := "run"
  targetDatabase := "shop"
  table := ⟨"users", ["name"], ["name", "email"], [], by decide⟩
  chunkSize := 1000

/-- The server refuses the second statement. -/
def usersWorld : SyncWorld where
  outcome _ := .done
  statement tick := if tick = 1 then .refused (some 1062) "Duplicate entry" else .executed
  uniqueIndexes :=
    { indexes := [emailIndex]
      resolveSyncUniqueIndex := fun _ => .ok emailIndex
      resolved := by
        rintro _ _ ⟨⟩
        exact List.mem_singleton.mpr rfl
      sameIdentity := fun index row row' =>
        (index.identity row).isSome && decide (index.identity row = index.identity row') }

/-- A table without users. -/
def noUsers : SyncRows := ⟨[], List.Pairwise.nil⟩

/-- The target has no users. -/
def usersStart : SyncRuntime := ⟨0, noUsers, noUsers, true, fun _ => none, []⟩

/-- The target has a user, and the next statement is refused. -/
def ownedStart : SyncRuntime :=
  { usersStart with tick := 1, working := noUsers.put (userRow 0 (some "x")) }

theorem BatchDistinct.singleton {indexes : List SyncUniqueIndex} (row : DatabaseRow) :
    BatchDistinct indexes [row] where
  keys := List.nodup_singleton _
  identities _ _ r hr r' hr' _ _ _ := by
    rw [List.mem_singleton.mp hr, List.mem_singleton.mp hr']

/-- A batch of users that takes two statements: one of the first has the address of the last. -/
structure SharedAddress (first : List DatabaseRow) (last owner : DatabaseRow) : Prop where
  /-- The first users fill a statement. -/
  length : first.length = strictInsertBatchCapacity usersConfig.table
  /-- Their keys are different. -/
  nodup : (first.map DatabaseRow.primaryKey).Nodup
  /-- The last user has another key. -/
  fresh : last.primaryKey ∉ first.map DatabaseRow.primaryKey
  /-- The last user has an address. -/
  values : ∃ values, requiredNonNullValues last ["email"] "unique index" = .ok values
  /-- The owner is a valid one for the target. -/
  valid : validateUniqueOwner usersConfig.table emailIndex last owner = .ok ()
  /-- Without a source row the owner is deleted. -/
  plan : planUniqueOwnerAction "users" ⟨emailIndex, last, owner⟩ none = .ok .delete
  /-- No other user has the address. -/
  owners : (noUsers.putAll first).rows.filter
    (usersWorld.uniqueIndexes.sameIdentity emailIndex last) = [owner]

variable {first : List DatabaseRow} {last owner : DatabaseRow} {source : SyncRows}
  {s : SyncRuntime} {α : Type}

theorem mem_noUsers_putAll {rows : List DatabaseRow}
    (hnodup : (rows.map DatabaseRow.primaryKey).Nodup) {r : DatabaseRow} :
    r ∈ (noUsers.putAll rows).rows ↔ r ∈ rows := by
  constructor
  · intro hr
    have hfind := KeyedTable.find_key hr
    by_cases hmem : r.primaryKey ∈ rows.map DatabaseRow.primaryKey
    · obtain ⟨r', hr', hkey⟩ := List.mem_map.mp hmem
      rw [← hkey, KeyedTable.find_putAll_of_mem hnodup hr'] at hfind
      exact Option.some.inj hfind ▸ hr'
    · rw [KeyedTable.find_putAll_of_notMem hmem] at hfind
      cases hfind
  · intro hr
    exact KeyedTable.mem_of_find (KeyedTable.find_putAll_of_mem hnodup hr)

theorem SharedAddress.owner_mem (h : SharedAddress first last owner) :
    owner ∈ (noUsers.putAll first).rows := by
  have hmem : owner ∈ [owner] := List.mem_singleton.mpr rfl
  rw [← h.owners] at hmem
  exact List.mem_of_mem_filter hmem

theorem SharedAddress.other (h : SharedAddress first last owner) :
    owner.primaryKey ≠ last.primaryKey := by
  intro hkey
  refine h.fresh ?_
  rw [← hkey]
  exact List.mem_map_of_mem ((mem_noUsers_putAll h.nodup).mp h.owner_mem)

theorem batches_append {β : Type} {capacity : Nat} {first : List β}
    (hlength : first.length = capacity) (hne : first ≠ []) (fuel : Nat) (rest : List β) :
    batches capacity (fuel + 1) (first ++ rest) = first :: batches capacity fuel rest := by
  obtain ⟨x, xs, rfl⟩ := List.exists_cons_of_ne_nil hne
  rw [List.cons_append, batches, ← List.cons_append, ← hlength, List.take_left, List.drop_left]
  exact List.cons_ne_nil _ _

theorem SharedAddress.batches_eq (h : SharedAddress first last owner) :
    batches (strictInsertBatchCapacity usersConfig.table) (first ++ [last]).length
      (first ++ [last]) = [first, [last]] := by
  have hpos : 0 < first.length := h.length ▸ boundedMutationCapacity_pos _
  obtain ⟨n, hn⟩ := Nat.exists_eq_add_of_le' hpos
  rw [List.length_append, List.length_singleton,
    batches_append h.length (List.ne_nil_of_length_pos hpos), ← h.length, hn, batches,
    List.take_of_length_le (by simp), List.drop_of_length_le (by simp)]
  · cases n <;> rfl
  · exact List.cons_ne_nil _ _

theorem exists_retryBound (first : List DatabaseRow) (last : DatabaseRow) :
    ∃ fuel, retryBound usersWorld (first ++ [last]) usersStart = fuel + 2 := by
  have hpos : 1 < retryBound usersWorld (first ++ [last]) usersStart := by
    unfold retryBound
    rw [List.length_append]
    exact Nat.lt_add_of_pos_left
      (Nat.mul_pos (by decide) (Nat.mul_pos (Nat.succ_pos _) (Nat.succ_pos _)))
  obtain ⟨fuel, hfuel⟩ := Nat.exists_eq_add_of_le' hpos
  exact ⟨fuel, hfuel⟩

/-! The operations of this world, one after the other. -/

theorem wp_users_done {answer : SyncRuntime → α} {effect : SyncRuntime → SyncRuntime}
    {Q : α → SyncRuntime → Prop} {E : SyncStop → SyncRuntime → Prop}
    (hQ : Q (answer s) (effect s.ticked)) :
    Prog.wp (sessionOperation usersWorld answer effect) Q E s := hQ

theorem wp_users_executed {mutation : SyncMutation} {effect : StatementEffect} {expected : Nat}
    {rows : SyncRows} {Q : Except StatementFailure Unit → SyncRuntime → Prop}
    {E : SyncStop → SyncRuntime → Prop} {table : SyncTable} (htick : s.tick ≠ 1)
    (heffect : effect s.working = some (expected, rows))
    (hQ : Q (.ok ()) (s.mutated mutation rows)) :
    Prog.wp (executeStatement usersWorld table mutation effect expected) Q E s := by
  unfold Prog.wp executeStatement
  simp only [usersWorld, if_neg htick, heffect, if_true]
  exact hQ

theorem wp_mapError_never {c : Sync α} {text : String → String} {Q : α → SyncRuntime → Prop}
    (h : Prog.wp c Q (fun _ _ => False) s) :
    Prog.wp (c.mapError text) Q (fun _ _ => False) s := by
  unfold Sync.mapError Sync.onError
  rw [Prog.wp_onFailure]
  exact Prog.wp_mono h (fun _ _ h => h) fun _ _ h => h.elim

theorem wp_decided_ok {a : α} {Q : α → SyncRuntime → Prop} {E : SyncStop → SyncRuntime → Prop}
    (hQ : Q a s) : Prog.wp (Sync.decided (.ok a)) Q E s := hQ

/-- The first users are inserted, and the statement of the last is refused. -/
theorem SharedAddress.wp_tryStrictMutation (h : SharedAddress first last owner)
    {Q : Option SyncMutationFailure → SyncRuntime → Prop}
    (hQ : Q (some ⟨some 1062, "target mysql statement failed: Duplicate entry", [last], []⟩)
      (usersStart.mutated (.inserted first) (noUsers.putAll first)).ticked) :
    Prog.wp (tryStrictMutation usersWorld usersConfig (first ++ [last]) .insert) Q
      (fun _ _ => False) usersStart := by
  have heffect : insertEffect first noUsers = some (first.length, noUsers.putAll first) :=
    if_pos ⟨h.nodup, fun _ _ => rfl⟩
  unfold tryStrictMutation insertRows
  simp only [Prog.wp_bind, Prog.wp_pure]
  rw [h.batches_eq, executeMutationBatches, Prog.wp_bind]
  refine wp_users_executed (by decide) heffect ?_
  dsimp only
  rw [executeMutationBatches, Prog.wp_bind]
  exact hQ

theorem SharedAddress.wp_queryUniqueOwner (h : SharedAddress first last owner)
    {Q : Option DatabaseRow → SyncRuntime → Prop} (found : Option DatabaseRow)
    (hfound : s.working.rows.filter (usersWorld.uniqueIndexes.sameIdentity emailIndex last) =
      found.toList) (hQ : Q found s.ticked) :
    Prog.wp (queryUniqueOwner usersWorld usersConfig.table emailIndex last) Q (fun _ _ => False)
      s := by
  obtain ⟨values, hvalues⟩ := h.values
  have hcolumns : ¬ emailIndex.columns.isEmpty = true := by decide
  unfold queryUniqueOwner
  rw [if_neg hcolumns]
  change Prog.wp (Sync.decided (requiredNonNullValues last ["email"] "unique index") >>= _) _ _ _
  rw [hvalues]
  simp only [Prog.wp_bind]
  refine wp_decided_ok (wp_users_done ?_)
  rw [hfound]
  cases found <;> exact hQ

/-- The owner among the first users is found. -/
theorem SharedAddress.wp_inspectUniqueOwnerConflicts (h : SharedAddress first last owner)
    {Q : List SyncUniqueOwnerConflict → SyncRuntime → Prop} {failure : SyncMutationFailure}
    (hcode : failure.mysqlCode = some 1062) (hbatch : failure.failedBatch = [last])
    (hs : s.working = noUsers.putAll first)
    (hQ : Q [⟨emailIndex, last, owner⟩] s.ticked.ticked) :
    Prog.wp (inspectUniqueOwnerConflicts usersWorld usersConfig.table failure) Q
      (fun _ _ => False) s := by
  have howner : s.working.rows.filter (usersWorld.uniqueIndexes.sameIdentity emailIndex last) =
      (some owner).toList := hs ▸ h.owners
  unfold inspectUniqueOwnerConflicts
  rw [if_neg (not_not.mpr hcode), hbatch]
  simp only [Prog.wp_bind, uniqueOwnerConflicts, loadUniqueIndex]
  refine wp_users_done ?_
  change Prog.wp (queryUniqueOwner usersWorld usersConfig.table emailIndex last) _ _ _
  refine h.wp_queryUniqueOwner _ howner ?_
  dsimp only
  rw [if_neg h.other, Prog.wp_bind, h.valid]
  exact hQ

/-- The owner is deleted, although it is a row of the batch. -/
theorem SharedAddress.wp_reconcileUniqueOwnerConflict (h : SharedAddress first last owner)
    {Q : Unit → SyncRuntime → Prop} (hsource : source.find owner.primaryKey = none)
    (htick : 1 < s.tick) (hs : s.working = noUsers.putAll first)
    (hQ : ∀ s' : SyncRuntime, 1 < s'.tick →
      s'.working = (noUsers.putAll first).erase [owner.primaryKey] → Q () s') :
    Prog.wp (reconcileUniqueOwnerConflict usersWorld usersConfig source []
      ⟨emailIndex, last, owner⟩) Q (fun _ _ => False) s := by
  have heffect : deleteEffect [owner.primaryKey] s.working =
      some (1, (noUsers.putAll first).erase [owner.primaryKey]) := by
    simp [deleteEffect, hs, KeyedTable.find_key h.owner_mem]
  have hbatches : batches (strictDeleteBatchCapacity usersConfig.table) [owner.primaryKey].length
      [owner.primaryKey] = [[owner.primaryKey]] :=
    batches_singleton (boundedMutationCapacity_pos _) _
  have hgone : ((noUsers.putAll first).erase [owner.primaryKey]).find owner.primaryKey = none := by
    rw [KeyedTable.find_erase]
    simp
  have hnone : ((noUsers.putAll first).erase [owner.primaryKey]).rows.filter
      (usersWorld.uniqueIndexes.sameIdentity emailIndex last) = [] := by
    change (List.filter _ _).filter _ = []
    rw [List.filter_comm, h.owners]
    simp
  unfold reconcileUniqueOwnerConflict
  rw [if_neg List.not_mem_nil, Prog.wp_bind]
  refine wp_mapError_never (wp_users_done ?_)
  rw [Prog.wp_bind, hsource]
  change Prog.wp (Sync.decided (planUniqueOwnerAction "users" _ none)) _ _ _
  rw [h.plan]
  refine wp_mapError_never ?_
  unfold reconcileUniqueOwner deleteRows
  rw [hbatches]
  simp only [Prog.forEach, Prog.wp_bind, Prog.wp_pure]
  refine wp_users_executed (Nat.succ_ne_succ_iff.mpr (by omega)) heffect ?_
  dsimp only
  rw [Prog.wp_pure]
  refine wp_users_done ?_
  unfold verifyExactRow
  change Prog.wp (if ((noUsers.putAll first).erase [owner.primaryKey]).find owner.primaryKey = none
    then _ else _) _ _ _
  rw [if_pos hgone, Prog.wp_pure]
  refine h.wp_queryUniqueOwner none hnone (hQ _ ?_ rfl)
  change 1 < s.tick + 1 + 1 + 1 + 1
  omega

/-- A row of the batch that the source has lost meanwhile is deleted as the owner of the last row,
and the mutation succeeds without it. -/
theorem SharedAddress.wp_applyStrictMutations (h : SharedAddress first last owner)
    (hsource : source.find owner.primaryKey = none) :
    Prog.wp (applyStrictMutations usersWorld usersConfig source (first ++ [last]) .insert)
      (fun _ s' => s'.working.find owner.primaryKey = none) (fun _ _ => False) usersStart := by
  obtain ⟨fuel, hfuel⟩ := exists_retryBound first last
  have hsome : ¬ (first ++ [last]).isEmpty = true := by simp
  unfold applyStrictMutations
  rw [if_neg hsome, Prog.wp_bind, Prog.wp_reads, Prog.wp_bind, hfuel, retryStrictMutations,
    Prog.wp_bind]
  refine h.wp_tryStrictMutation ?_
  dsimp only
  rw [Prog.wp_bind]
  refine wp_mapError_never (h.wp_inspectUniqueOwnerConflicts rfl rfl rfl ?_)
  rw [Prog.wp_bind]
  simp only [reconcileUniqueOwnerConflicts, Prog.wp_bind]
  refine h.wp_reconcileUniqueOwnerConflict hsource (show 1 < 4 by decide) rfl ?_
  intro s' htick hs'
  have heffect : insertEffect [last] s'.working = some (1, s'.working.putAll [last]) := by
    refine if_pos ⟨List.nodup_singleton _, fun row hrow => ?_⟩
    obtain rfl := List.mem_singleton.mp hrow
    rw [hs', KeyedTable.find_erase, KeyedTable.find_putAll_of_notMem h.fresh]
    split <;> rfl
  have hbatches : batches (strictInsertBatchCapacity usersConfig.table) [last].length [last] =
      [[last]] := batches_singleton (boundedMutationCapacity_pos _) last
  have hgone : (s'.working.putAll [last]).find owner.primaryKey = none := by
    have hmem : owner.primaryKey ∉ [last].map DatabaseRow.primaryKey := by simpa using h.other
    rw [KeyedTable.find_putAll_of_notMem hmem, hs', KeyedTable.find_erase]
    simp
  have hverified : (s'.mutated (.inserted [last]) (s'.working.putAll [last])).working.find
      last.primaryKey = some last := by
    have hnodup : ([last].map DatabaseRow.primaryKey).Nodup := List.nodup_singleton _
    exact KeyedTable.find_putAll_of_mem hnodup (List.mem_singleton.mpr rfl)
  -- The second round sends the last row alone; only its row is verified.
  rw [Prog.wp_pure]
  change Prog.wp (retryStrictMutations usersWorld usersConfig source .insert (fuel + 1) [last] _ _)
    _ _ _
  rw [retryStrictMutations, Prog.wp_bind]
  unfold tryStrictMutation insertRows
  rw [hbatches]
  simp only [Prog.wp_bind, Prog.wp_pure, executeMutationBatches]
  refine wp_users_executed (by omega) heffect (wp_mapError_never ?_)
  change Prog.wp (verifyRows usersWorld [last]) _ _ _
  unfold verifyRows
  simp only [Prog.forEach, Prog.wp_bind]
  refine wp_users_done ?_
  unfold verifyExactRow
  rw [if_pos hverified]
  exact hgone

theorem SharedAddress.exists_run (h : SharedAddress first last owner)
    (hsource : source.find owner.primaryKey = none) :
    ∃ s', applyStrictMutations usersWorld usersConfig source (first ++ [last]) .insert usersStart =
      (.ok (), s') ∧ s'.working.find owner.primaryKey = none := by
  have hwp := h.wp_applyStrictMutations hsource
  cases hrun : (applyStrictMutations usersWorld usersConfig source (first ++ [last]) .insert
      usersStart).1 with
  | error stop =>
    have hnever := Prog.wp_error hwp (Prod.ext hrun rfl)
    exact hnever.elim
  | ok value =>
    have hgone := Prog.wp_value hwp (Prod.ext hrun rfl)
    exact ⟨_, Prod.ext hrun rfl, hgone⟩

/-- The users of the first statement; the first of them has an address. -/
def firstUsers : List DatabaseRow :=
  userRow 0 (some "x") :: (List.range 127).map fun i => userRow (i + 1) none

/-- A user with the same address. -/
def lastUser : DatabaseRow := userRow 128 (some "x")

theorem userRow_key_injective {n m : Nat} {e e' : Option String}
    (h : (userRow n e).primaryKey = (userRow m e').primaryKey) : n = m := by
  have hvalues := congrArg PrimaryKey.values h
  simpa [userRow, String.ofList_inj] using hvalues

theorem firstUsers_nodup : (firstUsers.map DatabaseRow.primaryKey).Nodup := by
  rw [firstUsers, List.map_cons, List.map_map, List.nodup_cons]
  constructor
  · intro hmem
    obtain ⟨i, -, hi⟩ := List.mem_map.mp hmem
    exact absurd (userRow_key_injective hi) (Nat.succ_ne_zero i)
  · refine List.nodup_range.map fun i j hij => ?_
    have hsucc := userRow_key_injective hij
    omega

theorem firstUsers_owners : (noUsers.putAll firstUsers).rows.filter
    (usersWorld.uniqueIndexes.sameIdentity emailIndex lastUser) = [userRow 0 (some "x")] := by
  have hmem : ∀ r, r ∈ (noUsers.putAll firstUsers).rows.filter
      (usersWorld.uniqueIndexes.sameIdentity emailIndex lastUser) ↔ r = userRow 0 (some "x") := by
    intro r
    rw [List.mem_filter, mem_noUsers_putAll firstUsers_nodup, firstUsers, List.mem_cons,
      List.mem_map]
    constructor
    · rintro ⟨rfl | ⟨i, -, rfl⟩, hsame⟩
      · rfl
      · have hnone : emailIndex.identity (userRow (i + 1) none) = none := rfl
        have hsome : emailIndex.identity lastUser ≠ none := by decide
        simp [usersWorld, hnone, hsome] at hsame
    · rintro rfl
      exact ⟨Or.inl rfl, by decide⟩
  have hnodup := (noUsers.putAll firstUsers).rows_nodup.filter
    (usersWorld.uniqueIndexes.sameIdentity emailIndex lastUser)
  refine List.perm_singleton.mp ((List.perm_ext_iff_of_nodup hnodup (List.nodup_singleton _)).mpr ?_)
  intro r
  rw [hmem, List.mem_singleton]

theorem firstUsers_shared : SharedAddress firstUsers lastUser (userRow 0 (some "x")) := by
  have hother : ¬ (userRow 0 (some "x")).primaryKey = lastUser.primaryKey := fun h =>
    absurd (userRow_key_injective h) (by decide)
  refine ⟨?_, firstUsers_nodup, ?_, ⟨["x"], rfl⟩, ?_, ?_, firstUsers_owners⟩
  · rw [firstUsers, List.length_cons, List.length_map, List.length_range]
    decide
  · rw [firstUsers, List.map_cons, List.map_map, List.mem_cons]
    rintro (h | h)
    · exact hother h.symm
    · obtain ⟨i, hi, h⟩ := List.mem_map.mp h
      have hbound := List.mem_range.mp hi
      have hsame := userRow_key_injective h
      omega
  · rw [validateUniqueOwner, if_neg hother]
    rfl
  · rw [planUniqueOwnerAction, validateUniqueOwnerConflict, if_neg hother]
    rfl

end SharedAddress

end BinlogCdc
