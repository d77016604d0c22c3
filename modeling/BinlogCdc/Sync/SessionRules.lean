import BinlogCdc.Sync.Chunk

/-!
# Rules of the session operations

What each operation of the sessions can do to the state, as one rule for each. The
mutations of a sync only ever pull rows of the target towards the source; a rule names
the keys that are at the source after a success and the keys that may have moved. Every
stop goes back to an operation that the world did not let through.
-/

namespace BinlogCdc

theorem batches_flatten {β : Type} {capacity : Nat} (hcapacity : 0 < capacity) (fuel : Nat)
    (rows : List β) (hfuel : rows.length ≤ fuel) : (batches capacity fuel rows).flatten = rows := by
  induction fuel generalizing rows with
  | zero =>
    cases rows with
    | nil => rfl
    | cons row rows => simp at hfuel
  | succ fuel ih =>
    cases rows with
    | nil => rfl
    | cons row rows =>
      have hlength : ((row :: rows).drop capacity).length ≤ fuel := by
        rw [List.length_drop]
        omega
      rw [batches, List.flatten_cons, ih _ hlength, List.take_append_drop]
      simp

theorem boundedMutationCapacity_pos (placeholders : Nat) :
    0 < boundedMutationCapacity placeholders := by
  unfold boundedMutationCapacity maxSyncMutationRowsPerStatement
  omega

/-- The statement of a kind. -/
def MutationKind.mutation : MutationKind → List DatabaseRow → SyncMutation
  | .insert => .inserted
  | .update => .updated

/-- The phase of a kind. -/
def MutationKind.phase : MutationKind → SyncMutationPhase
  | .insert => .insertMissing
  | .update => .updateDivergent

theorem MutationKind.kind_mutation (kind : MutationKind) (rows : List DatabaseRow) :
    (kind.mutation rows).kind = kind.phase := by
  cases kind <;> rfl

/-- The keys of some rows. -/
def keysOf (rows : List DatabaseRow) (key : PrimaryKey) : Prop :=
  key ∈ rows.map DatabaseRow.primaryKey

theorem keysOf_append {rows rows' : List DatabaseRow} {key : PrimaryKey} :
    keysOf (rows ++ rows') key ↔ keysOf rows key ∨ keysOf rows' key := by
  simp [keysOf]

section Rules

variable [LinearOrder PrimaryKey] {world : SyncWorld} {source : SyncRows} {α : Type}

/-- The world lets every operation through. -/
structure SyncWorld.Quiet (world : SyncWorld) : Prop where
  /-- Every operation takes effect. -/
  outcome : ∀ tick, world.outcome tick = .done
  /-- Every mutation statement is executed. -/
  statement : ∀ tick, world.statement tick = .executed

/-- How a program stops: within its loop bounds, because of the world, and in a state with a
property. -/
def SyncStopped (world : SyncWorld) (R : SyncRuntime → Prop) (stop : SyncStop)
    (s : SyncRuntime) : Prop := stop ≠ .diverged ∧ ¬ world.Quiet ∧ R s

variable {Q : α → SyncRuntime → Prop} {R : SyncRuntime → Prop} {s : SyncRuntime}

theorem SyncStopped.mono {R' : SyncRuntime → Prop} {stop : SyncStop}
    (h : SyncStopped world R stop s) (hR : R s → R' s) : SyncStopped world R' stop s :=
  ⟨h.1, h.2.1, hR h.2.2⟩

/-- The state after an operation without an effect. -/
def SyncRuntime.ticked (s : SyncRuntime) : SyncRuntime := { s with tick := s.tick + 1 }

@[simp] theorem SyncRuntime.ticked_working : s.ticked.working = s.working := rfl
@[simp] theorem SyncRuntime.ticked_committed : s.ticked.committed = s.committed := rfl
@[simp] theorem SyncRuntime.ticked_progress : s.ticked.progress = s.progress := rfl

theorem wp_sessionOperation {answer : SyncRuntime → α} {effect : SyncRuntime → SyncRuntime}
    (hQ : Q (answer s) (effect s.ticked)) (hR : R s.ticked) :
    Prog.wp (sessionOperation world answer effect) Q (SyncStopped world R) s := by
  unfold Prog.wp sessionOperation
  cases houtcome : world.outcome s.tick with
  | done => exact hQ
  | refused message =>
    refine ⟨by simp, fun hquiet => ?_, hR⟩
    rw [hquiet.outcome] at houtcome
    cases houtcome
  | crashed =>
    refine ⟨by simp, fun hquiet => ?_, hR⟩
    rw [hquiet.outcome] at houtcome
    cases houtcome

theorem wp_onError {c : Sync α} {handler : String → Sync α} {R' : SyncRuntime → Prop}
    (h : Prog.wp c Q (SyncStopped world R') s)
    (hhandler : ∀ message s', ¬ world.Quiet → R' s' →
      Prog.wp (handler message) Q (SyncStopped world R) s')
    (hcrash : ∀ s', R' s' → R s') : Prog.wp (c.onError handler) Q (SyncStopped world R) s := by
  unfold Sync.onError
  rw [Prog.wp_onFailure]
  refine Prog.wp_mono h (fun _ _ h => h) ?_
  rintro stop s' ⟨hstop, hquiet, hR'⟩
  cases stop with
  | error message => exact hhandler message s' hquiet hR'
  | crash => exact ⟨hstop, hquiet, hcrash s' hR'⟩
  | diverged => exact absurd rfl hstop

theorem wp_mapError {c : Sync α} {text : String → String}
    (h : Prog.wp c Q (SyncStopped world R) s) :
    Prog.wp (c.mapError text) Q (SyncStopped world R) s :=
  wp_onError h (fun _ _ hquiet hR => ⟨by simp, hquiet, hR⟩) fun _ hR => hR

/-- A check may only fail where the world has interfered. -/
theorem wp_syncDecided {result : Except String α} (hok : ∀ a, result = .ok a → Q a s)
    (herror : ∀ message, result = .error message → ¬ world.Quiet ∧ R s) :
    Prog.wp (Sync.decided result) Q (SyncStopped world R) s := by
  cases result with
  | ok a => exact hok a rfl
  | error message => exact ⟨by simp, herror message rfl⟩

/-! ## Moves towards the source -/

/-- The rows moved towards the source; nothing else of the state changed but for the mutations
executed, whose kinds are given. -/
structure SyncRuntime.Moved (source : SyncRows) (must may : PrimaryKey → Prop)
    (kinds : SyncMutationPhase → Prop) (s s' : SyncRuntime) : Prop where
  /-- The committed rows are the same. -/
  committed : s'.committed = s.committed
  /-- The progress rows are the same. -/
  progress : s'.progress = s.progress
  /-- The locks are the same. -/
  locked : s'.locked = s.locked
  /-- The rows moved towards the source. -/
  rows : KeyedTable.Pulls source must may s.working s'.working
  /-- The mutations executed. -/
  mutations : ∃ executed, s'.mutations = s.mutations ++ executed ∧ ∀ m ∈ executed, kinds m.kind

namespace SyncRuntime.Moved

variable {s' s'' : SyncRuntime} {must may must' may' : PrimaryKey → Prop}
  {kinds kinds' : SyncMutationPhase → Prop}

/-- A state with the same rows, progress, locks and mutations. -/
theorem still (hcommitted : s'.committed = s.committed) (hprogress : s'.progress = s.progress)
    (hlocked : s'.locked = s.locked) (hworking : s'.working = s.working)
    (hmutations : s'.mutations = s.mutations) : Moved source (fun _ => False) may kinds s s' where
  committed := hcommitted
  progress := hprogress
  locked := hlocked
  rows := by
    rw [hworking]
    exact KeyedTable.Pulls.refl s.working
  mutations := ⟨[], by rw [hmutations, List.append_nil], fun _ h => by cases h⟩

theorem refl (s : SyncRuntime) : Moved source (fun _ => False) may kinds s s :=
  still rfl rfl rfl rfl rfl

theorem ticked (s : SyncRuntime) : Moved source (fun _ => False) may kinds s s.ticked :=
  still rfl rfl rfl rfl rfl

theorem trans (h : Moved source must may kinds s s') (h' : Moved source must' may' kinds' s' s'') :
    Moved source (fun k => must k ∨ must' k) (fun k => may k ∨ may' k)
      (fun p => kinds p ∨ kinds' p) s s'' where
  committed := h'.committed.trans h.committed
  progress := h'.progress.trans h.progress
  locked := h'.locked.trans h.locked
  rows := h.rows.trans h'.rows
  mutations := by
    obtain ⟨first, hfirst, hkinds⟩ := h.mutations
    obtain ⟨second, hsecond, hkinds'⟩ := h'.mutations
    refine ⟨first ++ second, by rw [hsecond, hfirst, List.append_assoc], ?_⟩
    intro m hm
    rcases List.mem_append.mp hm with hm | hm
    · exact Or.inl (hkinds m hm)
    · exact Or.inr (hkinds' m hm)

theorem mono (h : Moved source must may kinds s s') (hmust : ∀ k, must' k → must k)
    (hmay : ∀ k, may k → may' k) (hkinds : ∀ p, kinds p → kinds' p) :
    Moved source must' may' kinds' s s' where
  committed := h.committed
  progress := h.progress
  locked := h.locked
  rows := h.rows.mono hmust hmay
  mutations := by
    obtain ⟨executed, hexecuted, hk⟩ := h.mutations
    exact ⟨executed, hexecuted, fun m hm => hkinds _ (hk m hm)⟩

/-- A second move within the keys and kinds of the first. -/
theorem next (h : Moved source must may kinds s s') (h' : Moved source must' may kinds s' s'') :
    Moved source (fun k => must k ∨ must' k) may kinds s s'' :=
  (h.trans h').mono (fun _ hk => hk) (fun _ hk => hk.elim id id) fun _ hp => hp.elim id id

/-- No key needs to be at the source. -/
theorem loosen (h : Moved source must may kinds s s') :
    Moved source (fun _ => False) may kinds s s' :=
  h.mono (fun _ hk => hk.elim) (fun _ hk => hk) fun _ hp => hp

end SyncRuntime.Moved

/-! ## Statements and batches -/

/-- The state after an executed mutation statement. -/
def SyncRuntime.mutated (s : SyncRuntime) (mutation : SyncMutation) (rows : SyncRows) :
    SyncRuntime :=
  { s.ticked with working := rows, mutations := s.mutations ++ [mutation] }

/-- An executed statement towards the source. -/
theorem SyncRuntime.Moved.mutated {must may : PrimaryKey → Prop}
    {kinds : SyncMutationPhase → Prop} {mutation : SyncMutation} {rows : SyncRows}
    (hkind : kinds mutation.kind) (hrows : KeyedTable.Pulls source must may s.working rows) :
    SyncRuntime.Moved source must may kinds s (s.mutated mutation rows) where
  committed := rfl
  progress := rfl
  locked := rfl
  rows := hrows
  mutations := ⟨[mutation], rfl, fun m hm => by rw [List.mem_singleton.mp hm]; exact hkind⟩

section Statement

variable {table : SyncTable} {mutation : SyncMutation} {effect : StatementEffect} {expected : Nat}
  {Q : Except StatementFailure Unit → SyncRuntime → Prop}

/-- A statement whose rows may not be as expected; the world has interfered before. -/
theorem wp_executeStatement_of_not_quiet (hquiet : ¬ world.Quiet)
    (happlied : ∀ result matched rows, effect s.working = some (matched, rows) →
      Q result (s.mutated mutation rows))
    (hidle : ∀ failure, Q (.error failure) s.ticked) (hR : R s.ticked) :
    Prog.wp (executeStatement world table mutation effect expected) Q (SyncStopped world R) s := by
  unfold Prog.wp executeStatement
  cases world.statement s.tick with
  | executed =>
    cases heffect : effect s.working with
    | none => exact hidle _
    | some result =>
      obtain ⟨matched, rows⟩ := result
      by_cases hmatched : matched = expected
      · simp only [if_pos hmatched]
        exact happlied _ matched rows heffect
      · simp only [if_neg hmatched]
        exact happlied _ matched rows heffect
  | refused code message => exact hidle _
  | crashed => exact ⟨by simp, hquiet, hR⟩

/-- A statement that matches its rows. -/
theorem wp_executeStatement {rows : SyncRows} (heffect : effect s.working = some (expected, rows))
    (hok : Q (.ok ()) (s.mutated mutation rows))
    (herror : ∀ failure, ¬ world.Quiet → Q (.error failure) s.ticked) (hR : R s.ticked) :
    Prog.wp (executeStatement world table mutation effect expected) Q (SyncStopped world R) s := by
  unfold Prog.wp executeStatement
  cases hstatement : world.statement s.tick with
  | executed =>
    simp only [heffect, if_pos]
    exact hok
  | refused code message =>
    refine herror _ fun hquiet => ?_
    rw [hquiet.statement] at hstatement
    cases hstatement
  | crashed =>
    refine ⟨by simp, fun hquiet => ?_, hR⟩
    rw [hquiet.statement] at hstatement
    cases hstatement

end Statement

/-! ## Strict mutations -/

/-- The effect of a kind. -/
def MutationKind.effect : MutationKind → List DatabaseRow → StatementEffect
  | .insert => insertEffect
  | .update => updateEffect

/-- A row can be written: its key is free for an insert and taken for an update. -/
def MutationKind.Ready (kind : MutationKind) (rows : SyncRows) (row : DatabaseRow) : Prop :=
  match kind with
  | .insert => (rows.find row.primaryKey).isNone = true
  | .update => (rows.find row.primaryKey).isSome = true

theorem MutationKind.Ready.congr {kind : MutationKind} {rows rows' : SyncRows} {row : DatabaseRow}
    (h : kind.Ready rows row)
    (hfind : rows'.find row.primaryKey = rows.find row.primaryKey) : kind.Ready rows' row := by
  cases kind <;> simpa only [MutationKind.Ready, hfind] using h

/-- A batch of rows that can be written is written as a whole. -/
theorem MutationKind.effect_eq {kind : MutationKind} {rows : SyncRows} {batch : List DatabaseRow}
    (hnodup : (batch.map DatabaseRow.primaryKey).Nodup) (hready : ∀ r ∈ batch, kind.Ready rows r) :
    kind.effect batch rows = some (batch.length, rows.putAll batch) := by
  cases kind with
  | insert => exact if_pos ⟨hnodup, hready⟩
  | update =>
    have hall : batch.filter (fun row => (rows.find row.primaryKey).isSome) = batch :=
      List.filter_eq_self.mpr hready
    simp only [MutationKind.effect, updateEffect, hall]

variable {kind : MutationKind} {table : SyncTable}

/-- The batches of a strict mutation: on success every row is written, and on a failure the rows of
the batches before the failed one are. -/
theorem wp_executeMutationBatches {Q : Except SyncMutationFailure Unit → SyncRuntime → Prop}
    (chunks : List (List DatabaseRow)) {s : SyncRuntime}
    (hsource : ∀ r ∈ chunks.flatten, r ∈ source.rows)
    (hnodup : (chunks.flatten.map DatabaseRow.primaryKey).Nodup)
    (hready : ∀ r ∈ chunks.flatten, kind.Ready s.working r)
    (hok : ∀ s', s.Moved source (keysOf chunks.flatten) (keysOf chunks.flatten) (· = kind.phase) s' →
      Q (.ok ()) s')
    (herror : ∀ failure s', ¬ world.Quiet → (∃ applied,
      chunks.flatten = applied ++ failure.retryRows ∧
      s.Moved source (keysOf applied) (keysOf applied) (· = kind.phase) s') →
      Q (.error failure) s')
    (hstop : ∀ s', s.Moved source (fun _ => False) (keysOf chunks.flatten) (· = kind.phase) s' →
      R s') :
    Prog.wp (executeMutationBatches world table kind.mutation kind.effect chunks) Q
      (SyncStopped world R) s := by
  induction chunks generalizing s with
  | nil =>
    refine hok s ((SyncRuntime.Moved.refl s).mono ?_ (fun _ h => h) fun _ h => h)
    intro k hk
    simp [keysOf] at hk
  | cons batch rest ih =>
    rw [List.flatten_cons] at *
    rw [List.map_append, List.nodup_append] at hnodup
    obtain ⟨hbatch, hrest, hdisjoint⟩ := hnodup
    have hreadyBatch : ∀ r ∈ batch, kind.Ready s.working r :=
      fun r hr => hready r (List.mem_append_left _ hr)
    have hpulls : KeyedTable.Pulls source (keysOf batch) (keysOf batch) s.working
        (s.working.putAll batch) :=
      KeyedTable.pulls_putAll (fun r hr => hsource r (List.mem_append_left _ hr)) hbatch
    have hmoved : s.Moved source (keysOf batch) (keysOf batch) (· = kind.phase)
        (s.mutated (kind.mutation batch) (s.working.putAll batch)) :=
      SyncRuntime.Moved.mutated (kind.kind_mutation batch) hpulls
    rw [executeMutationBatches, Prog.wp_bind]
    refine wp_executeStatement (kind.effect_eq hbatch hreadyBatch) ?_ ?_ ?_
    · refine ih (fun r hr => hsource r (List.mem_append_right _ hr)) hrest ?_ ?_ ?_ ?_
      · intro r hr
        refine (hready r (List.mem_append_right _ hr)).congr (KeyedTable.find_putAll_of_notMem ?_)
        intro hk
        exact hdisjoint _ hk _ (List.mem_map_of_mem hr) rfl
      · intro s' hs'
        refine hok s' ((hmoved.trans hs').mono ?_ ?_ ?_)
        · exact fun k hk => keysOf_append.mp hk
        · exact fun k hk => keysOf_append.mpr hk
        · exact fun p hp => hp.elim id id
      · rintro failure s' hquiet ⟨applied, happlied, hs'⟩
        refine herror failure s' hquiet ⟨batch ++ applied, ?_, (hmoved.trans hs').mono ?_ ?_ ?_⟩
        · rw [happlied, List.append_assoc]
        · exact fun k hk => keysOf_append.mp hk
        · exact fun k hk => keysOf_append.mpr hk
        · exact fun p hp => hp.elim id id
      · intro s' hs'
        refine hstop s' ((hmoved.trans hs').mono (fun k hk => hk.elim) ?_ ?_)
        · exact fun k hk => keysOf_append.mpr hk
        · exact fun p hp => hp.elim id id
    · rintro ⟨code, message⟩ hquiet
      have hidle : s.Moved source (fun _ => False) (keysOf []) (· = kind.phase) s.ticked :=
        SyncRuntime.Moved.ticked s
      refine herror _ _ hquiet ⟨[], rfl, hidle.mono ?_ (fun _ h => h) fun _ h => h⟩
      exact fun k hk => absurd hk (by simp [keysOf])
    · exact hstop _ (SyncRuntime.Moved.ticked s)

variable {config : SyncChunkConfig} {rows : List DatabaseRow}

/-- A strict mutation: the rows are written, or a duplicate error stopped it after some of them. -/
theorem wp_tryStrictMutation {Q : Option SyncMutationFailure → SyncRuntime → Prop}
    (hsource : ∀ r ∈ rows, r ∈ source.rows) (hnodup : (rows.map DatabaseRow.primaryKey).Nodup)
    (hready : ∀ r ∈ rows, kind.Ready s.working r)
    (hok : ∀ s', s.Moved source (keysOf rows) (keysOf rows) (· = kind.phase) s' → Q none s')
    (herror : ∀ failure applied s', ¬ world.Quiet → rows = applied ++ failure.retryRows →
      s.Moved source (keysOf applied) (keysOf applied) (· = kind.phase) s' → Q (some failure) s')
    (hstop : ∀ s', s.Moved source (fun _ => False) (keysOf rows) (· = kind.phase) s' → R s') :
    Prog.wp (tryStrictMutation world config rows kind) Q (SyncStopped world R) s := by
  -- Both kinds send the batches of the same rows.
  have hbatches : ∀ capacity, 0 < capacity →
      ∀ finish : Except SyncMutationFailure Unit → Sync (Option SyncMutationFailure),
      finish (.ok ()) = pure none → (∀ failure, ∃ message, finish (.error failure) =
        if failure.mysqlCode = some 1062 then pure (some failure)
        else Prog.fail (.error message)) →
      Prog.wp (executeMutationBatches world config.table kind.mutation kind.effect
          (batches capacity rows.length rows))
        (fun result s' => Prog.wp (finish result) Q (SyncStopped world R) s')
        (SyncStopped world R) s := by
    intro capacity hcapacity finish hdone hfailed
    have hflatten := batches_flatten hcapacity rows.length rows le_rfl
    apply wp_executeMutationBatches (batches capacity rows.length rows)
    · rwa [hflatten]
    · rwa [hflatten]
    · rwa [hflatten]
    · rw [hflatten, hdone]
      exact hok
    · rw [hflatten]
      rintro failure s' hquiet ⟨applied, happlied, hs'⟩
      obtain ⟨message, hmessage⟩ := hfailed failure
      rw [hmessage]
      by_cases hcode : failure.mysqlCode = some 1062
      · simp only [if_pos hcode]
        exact herror failure applied s' hquiet happlied hs'
      · simp only [if_neg hcode]
        refine ⟨by simp, hquiet, hstop s' (hs'.mono (fun _ hk => hk.elim) ?_ fun _ h => h)⟩
        intro k hk
        rw [happlied]
        exact keysOf_append.mpr (Or.inl hk)
    · rw [hflatten]
      exact hstop
  unfold tryStrictMutation
  cases kind with
  | insert =>
    simp only [Prog.wp_bind, Prog.wp_pure, insertRows]
    exact hbatches _ (boundedMutationCapacity_pos _) _ rfl fun _ => ⟨_, rfl⟩
  | update =>
    simp only [Prog.wp_bind, Prog.wp_pure, updateRows]
    exact hbatches _ (boundedMutationCapacity_pos _) _ rfl fun _ => ⟨_, rfl⟩

/-! ## Deletes -/

/-- The batches of a delete of keys that the source does not have. A key that is gone already
fails the delete, so this may only happen where the world has interfered. -/
theorem wp_deleteBatches {Q : Unit → SyncRuntime → Prop} (chunks : List (List PrimaryKey))
    {s : SyncRuntime} (hsource : ∀ k ∈ chunks.flatten, source.find k = none)
    (hnodup : chunks.flatten.Nodup)
    (hpresent : world.Quiet → ∀ k ∈ chunks.flatten, (s.working.find k).isSome = true)
    (hok : ∀ s', s.Moved source (· ∈ chunks.flatten) (· ∈ chunks.flatten) (· = .deleteExtras) s' →
      Q () s')
    (hstop : ∀ s', s.Moved source (fun _ => False) (· ∈ chunks.flatten) (· = .deleteExtras) s' →
      R s') :
    Prog.wp (Prog.forEach chunks fun batch => do
        match ← executeStatement world table (.deleted batch) (deleteEffect batch) batch.length with
        | .ok () => pure ()
        | .error (_, message) => Prog.fail (.error message)) Q (SyncStopped world R) s := by
  induction chunks generalizing s with
  | nil =>
    refine hok s ((SyncRuntime.Moved.refl s).mono ?_ (fun _ h => h) fun _ h => h)
    intro k hk
    simp at hk
  | cons batch rest ih =>
    rw [List.flatten_cons] at *
    obtain ⟨hbatch, hrest, hdisjoint⟩ := List.nodup_append.mp hnodup
    have hmoved : s.Moved source (· ∈ batch) (· ∈ batch) (· = .deleteExtras)
        (s.mutated (.deleted batch) (s.working.erase batch)) :=
      SyncRuntime.Moved.mutated rfl
        (KeyedTable.pulls_erase fun k hk => hsource k (List.mem_append_left _ hk))
    have hstopped : R (s.mutated (.deleted batch) (s.working.erase batch)) :=
      hstop _ (hmoved.mono (fun _ h => h.elim) (fun _ => List.mem_append_left _) fun _ h => h)
    -- The rest of the batches, from the state after this one.
    have hnext : Prog.wp (Prog.forEach rest fun batch => do
          match ← executeStatement world table (.deleted batch) (deleteEffect batch)
            batch.length with
          | .ok () => pure ()
          | .error (_, message) => Prog.fail (.error message)) Q (SyncStopped world R)
          (s.mutated (.deleted batch) (s.working.erase batch)) := by
      refine ih (fun k hk => hsource k (List.mem_append_right _ hk)) hrest ?_ ?_ ?_
      · intro hquiet k hk
        change ((s.working.erase batch).find k).isSome = true
        rw [KeyedTable.find_erase, if_neg fun hk' => hdisjoint k hk' k hk rfl]
        exact hpresent hquiet k (List.mem_append_right _ hk)
      · intro s' hs'
        refine hok s' ((hmoved.trans hs').mono ?_ ?_ fun _ hp => hp.elim id id)
        · exact fun k hk => List.mem_append.mp hk
        · exact fun k hk => List.mem_append.mpr hk
      · intro s' hs'
        refine hstop s' ((hmoved.trans hs').mono (fun _ h => h.elim) ?_ fun _ hp => hp.elim id id)
        exact fun k hk => List.mem_append.mpr hk
    rw [Prog.forEach, Prog.wp_bind, Prog.wp_bind]
    by_cases hall : ∀ k ∈ batch, (s.working.find k).isSome = true
    · have hmatched : batch.filter (fun key => (s.working.find key).isSome) = batch :=
        List.filter_eq_self.mpr hall
      refine wp_executeStatement ?_ hnext ?_ ?_
      · simp only [deleteEffect, hmatched]
      · rintro ⟨code, message⟩ hquiet
        exact ⟨by simp, hquiet, hstop _ (SyncRuntime.Moved.ticked s)⟩
      · exact hstop _ (SyncRuntime.Moved.ticked s)
    · have hquiet : ¬ world.Quiet :=
        fun hquiet => hall fun k hk => hpresent hquiet k (List.mem_append_left _ hk)
      refine wp_executeStatement_of_not_quiet hquiet ?_ ?_ (hstop _ (SyncRuntime.Moved.ticked s))
      · intro result matched rows heffect
        cases heffect
        cases result with
        | ok _ => exact hnext
        | error failure => exact ⟨by simp, hquiet, hstopped⟩
      · intro failure
        exact ⟨by simp, hquiet, hstop _ (SyncRuntime.Moved.ticked s)⟩

/-- The delete of keys that the source does not have. -/
theorem wp_deleteRows {Q : Unit → SyncRuntime → Prop} {keys : List PrimaryKey}
    (hsource : ∀ k ∈ keys, source.find k = none) (hnodup : keys.Nodup)
    (hpresent : world.Quiet → ∀ k ∈ keys, (s.working.find k).isSome = true)
    (hok : ∀ s', s.Moved source (· ∈ keys) (· ∈ keys) (· = .deleteExtras) s' → Q () s')
    (hstop : ∀ s', s.Moved source (fun _ => False) (· ∈ keys) (· = .deleteExtras) s' → R s') :
    Prog.wp (deleteRows world table keys) Q (SyncStopped world R) s := by
  have hflatten := batches_flatten (boundedMutationCapacity_pos table.primaryKey.length)
    keys.length keys le_rfl
  apply wp_deleteBatches
  · unfold strictDeleteBatchCapacity
    rwa [hflatten]
  · unfold strictDeleteBatchCapacity
    rwa [hflatten]
  · unfold strictDeleteBatchCapacity
    rwa [hflatten]
  · unfold strictDeleteBatchCapacity
    rwa [hflatten]
  · unfold strictDeleteBatchCapacity
    rwa [hflatten]

end Rules

end BinlogCdc
