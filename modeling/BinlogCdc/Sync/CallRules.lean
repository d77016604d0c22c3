import BinlogCdc.Sync.ChunkRules

/-!
# What a call does

The rule of a whole call of the chunk function, from the progress it loads to the progress
it saves. A call reports a chunk that is committed and recorded, or it stops: then the
rows have moved towards the source and the progress is the old one, unless only the
release of the locks failed.
-/

namespace BinlogCdc

section Calls

variable [LinearOrder PrimaryKey] {world : SyncWorld} {config : SyncChunkConfig}
  {source : SyncRows} {phase : SyncMutationPhase} {s s' : SyncRuntime}

/-- Some rows moved towards the source. -/
def Drifts (source t t' : SyncRows) : Prop :=
  KeyedTable.Pulls source (fun _ => False) (fun _ => True) t t'

theorem Drifts.refl (t : SyncRows) : Drifts source t t := KeyedTable.Pulls.refl t

theorem Drifts.trans {t t' t'' : SyncRows} (h : Drifts source t t') (h' : Drifts source t' t'') :
    Drifts source t t'' :=
  (KeyedTable.Pulls.trans h h').mono (fun _ h => h.elim) fun _ _ => trivial

theorem Drifts.of_pulls {t t' : SyncRows} {must may : PrimaryKey → Prop}
    (h : KeyedTable.Pulls source must may t t') : Drifts source t t' :=
  h.mono (fun _ h => h.elim) fun _ _ => trivial

/-- The progress that a call of a phase starts from. -/
def loadedProgress (config : SyncChunkConfig) (phase : SyncMutationPhase) (s : SyncRuntime) :
    SyncChunkProgress :=
  (storedProgress phase s).getD (initialProgress config)

/-- Mutations of a phase were executed. -/
def SyncRuntime.Mutated (world : SyncWorld) (phase : SyncMutationPhase) (s s' : SyncRuntime) : Prop :=
  ∃ executed, s'.mutations = s.mutations ++ executed ∧ ∀ m ∈ executed, phaseKinds world phase m.kind

/-- The call left no record: the rows moved towards the source. -/
structure SyncRuntime.Interrupted (world : SyncWorld) (source : SyncRows)
    (phase : SyncMutationPhase) (s s' : SyncRuntime) : Prop where
  /-- The committed rows moved towards the source. -/
  committed : Drifts source s.committed s'.committed
  /-- The rows of the session are further towards the source. -/
  working : Drifts source s'.committed s'.working
  /-- The progress rows are the same. -/
  progress : s'.progress = s.progress
  /-- The mutations executed are of the phase. -/
  mutations : s.Mutated world phase s'

/-- The call committed a chunk and recorded its progress. -/
structure SyncRuntime.Stepped (world : SyncWorld) (config : SyncChunkConfig) (source : SyncRows)
    (phase : SyncMutationPhase) (s : SyncRuntime) (next : SyncChunkProgress) (s' : SyncRuntime) :
    Prop where
  /-- The table was not done. -/
  incomplete : (loadedProgress config phase s).complete = false
  /-- The chunk. -/
  step : ∃ keys, ChunkStep config source phase (loadedProgress config phase s) s.working next keys ∧
    KeyedTable.Pulls source keys (orRepaired world keys) s.working s'.working
  /-- The rows are committed. -/
  committed : s'.committed = s'.working
  /-- The progress is recorded. -/
  progress : s'.progress = Function.update s.progress phase (some next)
  /-- The mutations executed are of the phase. -/
  mutations : s.Mutated world phase s'

/-- What is left of a state by operations that do not touch the rows or the progress. -/
structure SyncRuntime.Kept (s s' : SyncRuntime) : Prop where
  /-- The committed rows are the same or those of the session. -/
  committed : s'.committed = s.committed ∨ s'.committed = s.working
  /-- The rows of the session are the same or the committed ones. -/
  working : s'.working = s.working ∨ s'.working = s.committed ∧ s'.committed = s.committed
  /-- The progress rows are the same. -/
  progress : s'.progress = s.progress
  /-- The mutations are the same. -/
  mutations : s'.mutations = s.mutations

/-- Cleaning up after an interruption leaves an interruption. -/
theorem SyncRuntime.Interrupted.kept {s'' : SyncRuntime} (h : s.Interrupted world source phase s')
    (h' : s'.Kept s'') : s.Interrupted world source phase s'' where
  committed := by
    rcases h'.committed with he | he
    · rw [he]
      exact h.committed
    · rw [he]
      exact h.committed.trans h.working
  working := by
    rcases h'.working with hw | ⟨hw, hc⟩
    · rw [hw]
      rcases h'.committed with he | he
      · rw [he]
        exact h.working
      · rw [he]
        exact Drifts.refl _
    · rw [hw, hc]
      exact Drifts.refl _
  progress := h'.progress.trans h.progress
  mutations := by
    obtain ⟨executed, hexecuted, hkinds⟩ := h.mutations
    exact ⟨executed, h'.mutations.trans hexecuted, hkinds⟩

/-! ## Clean-up -/

/-- A step of the clean-up keeps what it keeps whether it fails or not. -/
theorem wp_cleanupError {c : Sync Unit} {P : SyncRuntime → Prop}
    (hc : Prog.wp c (fun _ s' => P s') (SyncStopped world P) s) :
    Prog.wp (cleanupError c) (fun _ s' => P s') (SyncStopped world P) s := by
  unfold cleanupError
  refine wp_onError ?_ (fun _ _ _ h => h) fun _ h => h
  rw [Prog.wp_bind]
  exact hc

theorem wp_unlock_interrupted {s₀ : SyncRuntime} (h : s₀.Interrupted world source phase s) :
    Prog.wp (unlockTables world) (fun _ s' => s₀.Interrupted world source phase s')
      (SyncStopped world (s₀.Interrupted world source phase)) s := by
  refine wp_sessionOperation (h.kept ⟨?_, Or.inl rfl, rfl, rfl⟩)
    (h.kept ⟨Or.inl rfl, Or.inl rfl, rfl, rfl⟩)
  change (if s.locked = true then s.working else s.committed) = s.committed ∨
    (if s.locked = true then s.working else s.committed) = s.working
  split
  · exact Or.inr rfl
  · exact Or.inl rfl

theorem wp_rollback_interrupted {s₀ : SyncRuntime} (h : s₀.Interrupted world source phase s) :
    Prog.wp (rollback world) (fun _ s' => s₀.Interrupted world source phase s')
      (SyncStopped world (s₀.Interrupted world source phase)) s :=
  wp_sessionOperation (h.kept ⟨Or.inl rfl, Or.inr ⟨rfl, rfl⟩, rfl, rfl⟩)
    (h.kept ⟨Or.inl rfl, Or.inl rfl, rfl, rfl⟩)

theorem wp_rollbackAndUnlock {s₀ : SyncRuntime} (h : s₀.Interrupted world source phase s)
    (primaryError : String) :
    Prog.wp (rollbackAndUnlock world primaryError)
      (fun _ s' => s₀.Interrupted world source phase s')
      (SyncStopped world (s₀.Interrupted world source phase)) s := by
  unfold rollbackAndUnlock
  rw [Prog.wp_bind]
  refine Prog.wp_mono (wp_cleanupError (wp_rollback_interrupted h)) ?_ fun _ _ h => h
  intro _ s₁ hs₁
  rw [Prog.wp_bind]
  refine Prog.wp_mono (wp_cleanupError (wp_unlock_interrupted hs₁)) ?_ fun _ _ h => h
  exact fun _ s₂ hs₂ => hs₂

theorem wp_unlockAfterError {s₀ : SyncRuntime} (h : s₀.Interrupted world source phase s)
    (primaryError : String) :
    Prog.wp (unlockAfterError world primaryError)
      (fun _ s' => s₀.Interrupted world source phase s')
      (SyncStopped world (s₀.Interrupted world source phase)) s := by
  unfold unlockAfterError
  rw [Prog.wp_bind]
  refine Prog.wp_mono (wp_cleanupError (wp_unlock_interrupted h)) ?_ fun _ _ h => h
  intro error s₁ hs₁
  cases error <;> exact hs₁

/-! ## The call -/

/-- How a call ends: without a record, or with a recorded chunk. -/
def SyncRuntime.Ended (world : SyncWorld) (config : SyncChunkConfig) (source : SyncRows)
    (phase : SyncMutationPhase) (s s' : SyncRuntime) : Prop :=
  s.Interrupted world source phase s' ∨ ∃ next, s.Stepped world config source phase next s'

theorem wp_loadProgress
    (hidentity : validateProgressIdentity config (loadedProgress config phase s) = .ok ()) :
    Prog.wp (loadProgress world config phase)
      (fun progress s' => progress = loadedProgress config phase s ∧ s.Idle s')
      (SyncStopped world s.Idle) s := by
  unfold loadProgress
  rw [Prog.wp_bind]
  refine wp_mapError (wp_sessionOperation ?_ rfl)
  cases hloaded : storedProgress phase s with
  | none =>
    refine ⟨?_, rfl⟩
    rw [loadedProgress, hloaded, Option.getD_none]
  | some progress =>
    rw [loadedProgress, hloaded, Option.getD_some] at hidentity
    dsimp only
    rw [hidentity]
    refine ⟨?_, rfl⟩
    rw [loadedProgress, hloaded, Option.getD_some]

/-- The session is ready: its rows are committed, and nothing else has changed. -/
structure SyncRuntime.Prepared (s s' : SyncRuntime) : Prop where
  /-- The rows of the session are committed. -/
  committed : s'.committed = s.working
  /-- The rows of the session are the same. -/
  working : s'.working = s.working
  /-- The progress rows are the same. -/
  progress : s'.progress = s.progress
  /-- The mutations are the same. -/
  mutations : s'.mutations = s.mutations

/-- A call that has not changed the rows. -/
theorem SyncRuntime.Interrupted.of_idle (hdrifts : Drifts source s.committed s.working)
    (h : s.Idle s') : s.Interrupted world source phase s' := by
  have hs : s.Interrupted world source phase s :=
    ⟨Drifts.refl _, hdrifts, rfl, [], (List.append_nil _).symm, fun _ h => by cases h⟩
  rw [h]
  exact hs.kept ⟨Or.inl rfl, Or.inl rfl, rfl, rfl⟩

theorem wp_prepareTargetChunk (phase : SyncMutationPhase) {s₀ : SyncRuntime}
    (hdrifts : Drifts source s₀.committed s₀.working) (hs : s₀.Idle s) :
    Prog.wp (prepareTargetChunk world config) (fun _ s' => s₀.Prepared s')
      (SyncStopped world (s₀.Interrupted world source phase)) s := by
  unfold prepareTargetChunk
  rw [Prog.wp_bind]
  refine wp_mapError (wp_sessionOperation ?_ (.of_idle hdrifts (hs.trans rfl)))
  refine wp_mapError (wp_sessionOperation ?_ (.of_idle hdrifts (hs.trans rfl)))
  rw [hs]
  exact ⟨rfl, rfl, rfl, rfl⟩

/-- A committed chunk whose progress is not recorded. -/
theorem SyncRuntime.Interrupted.of_committed {keys : PrimaryKey → Prop} {s₁ : SyncRuntime}
    (hdrifts : Drifts source s.committed s.working) (hprepared : s.Prepared s₁)
    (h : s₁.Committed world source phase keys s') : s.Interrupted world source phase s' where
  committed := by
    rw [h.committed]
    exact hdrifts.trans (hprepared.working ▸ Drifts.of_pulls h.rows)
  working := by
    rw [h.committed]
    exact Drifts.refl _
  progress := h.progress.trans hprepared.progress
  mutations := by
    obtain ⟨executed, hexecuted, hkinds⟩ := h.mutations
    exact ⟨executed, by rw [hexecuted, hprepared.mutations], hkinds⟩

/-- A chunk that was stopped. -/
theorem SyncRuntime.Interrupted.of_drifted {s₁ : SyncRuntime}
    (hdrifts : Drifts source s.committed s.working) (hprepared : s.Prepared s₁)
    (h : s₁.Drifted world source phase s') : s.Interrupted world source phase s' where
  committed := by
    rw [h.committed, hprepared.committed]
    exact hdrifts
  working := by
    rw [h.committed, hprepared.committed, ← hprepared.working]
    exact h.rows
  progress := h.progress.trans hprepared.progress
  mutations := by
    obtain ⟨executed, hexecuted, hkinds⟩ := h.mutations
    exact ⟨executed, by rw [hexecuted, hprepared.mutations], hkinds⟩

/-- The progress of a committed chunk is recorded and the locks are released. -/
theorem wp_saveProgressAndUnlock {s₀ : SyncRuntime} {next : SyncChunkProgress}
    (hopen : (phase != .all && (completeRowsProgress s).isSome) = false)
    (hinterrupted : s₀.Interrupted world source phase s) (hcommitted : s.committed = s.working)
    (hrecorded : ∀ s', s'.committed = s.working → s'.working = s.working →
      s'.progress = Function.update s.progress phase (some next) → s'.mutations = s.mutations →
      s₀.Stepped world config source phase next s') :
    Prog.wp (saveProgressAndUnlock world config phase next)
      (fun report s' => s₀.Stepped world config source phase report s')
      (SyncStopped world (s₀.Ended world config source phase)) s := by
  unfold saveProgressAndUnlock
  rw [Prog.wp_bind]
  refine wp_onError ?_ ?_ fun _ h => Or.inl h
  · unfold saveProgressRow
    rw [Prog.wp_bind, Prog.wp_reads, hopen, if_neg Bool.false_ne_true]
    refine wp_sessionOperation ?_ (hinterrupted.kept ⟨Or.inl rfl, Or.inl rfl, rfl, rfl⟩)
    rw [Prog.wp_bind]
    refine wp_mapError (wp_sessionOperation ?_ (Or.inr ⟨next, ?_⟩))
    · refine hrecorded _ ?_ rfl rfl rfl
      change (if s.locked = true then s.working else s.committed) = s.working
      rw [hcommitted, ite_self]
    · exact hrecorded _ hcommitted rfl rfl rfl
  · intro message s₁ hquiet hs₁
    rw [Prog.wp_bind]
    refine Prog.wp_mono (wp_unlockAfterError hs₁ _) ?_ fun _ _ h => h.mono Or.inl
    intro _ s₂ hs₂
    exact ⟨by simp, hquiet, Or.inl hs₂⟩

/-- A call whose table is not done, from the moment the session is ready. -/
theorem wp_lockedChunk (hsize : 0 < config.chunkSize) {s₀ : SyncRuntime}
    (hdrifts : Drifts source s₀.committed s₀.working) (hprepared : s₀.Prepared s)
    (hincomplete : (loadedProgress config phase s₀).complete = false) :
    Prog.wp (do
        let progress ← (applyLockedChunk world config source phase
          (loadedProgress config phase s₀)).onError fun error => do
            let message ← rollbackAndUnlock world error
            Prog.fail (.error message)
        saveProgressAndUnlock world config phase progress)
      (fun report s' => s₀.Stepped world config source phase report s')
      (SyncStopped world (s₀.Ended world config source phase)) s := by
  rw [Prog.wp_bind]
  refine wp_onError (wp_applyLockedChunk hsize ?_ fun s' hs' => .of_drifted hdrifts hprepared hs') ?_
    fun _ h => Or.inl h
  · intro next keys s' hstep hs'
    have hclosed : (phase != .all && (completeRowsProgress s').isSome) = false := by
      cases hrows : completeRowsProgress s' with
      | none => exact Bool.and_false _
      | some complete =>
        -- A complete row of the table would have been the progress loaded.
        have hs₀ : completeRowsProgress s₀ = some complete := by
          rw [← hrows, completeRowsProgress, completeRowsProgress, hs'.progress, hprepared.progress]
        rw [loadedProgress, storedProgress, hs₀, Option.getD_some] at hincomplete
        rw [completeRowsProgress, Option.filter_eq_some_iff] at hs₀
        rw [hs₀.2] at hincomplete
        cases hincomplete
    refine wp_saveProgressAndUnlock hclosed (.of_committed hdrifts hprepared hs') hs'.committed ?_
    intro s'' hcommitted hworking hprogress hmutations
    refine ⟨hincomplete, ⟨keys, hprepared.working ▸ hstep, ?_⟩, hcommitted.trans hworking.symm, ?_, ?_⟩
    · rw [hworking, ← hprepared.working]
      exact hs'.rows
    · rw [hprogress, hs'.progress, hprepared.progress]
    · obtain ⟨executed, hexecuted, hkinds⟩ := hs'.mutations
      exact ⟨executed, by rw [hmutations, hexecuted, hprepared.mutations], hkinds⟩
  · intro message s' hquiet hs'
    rw [Prog.wp_bind]
    refine Prog.wp_mono (wp_rollbackAndUnlock hs' _) ?_ fun _ _ h => h.mono Or.inl
    exact fun _ s'' hs'' => ⟨by simp, hquiet, Or.inl hs''⟩

/-- A call reports a complete table, or a chunk that it committed and recorded; a call that stops
has left no record, or all of it. -/
theorem wp_syncNextChunkWithPhase (hsize : 0 < config.chunkSize)
    (hidentity : validateProgressIdentity config (loadedProgress config phase s) = .ok ())
    (hdrifts : Drifts source s.committed s.working) :
    Prog.wp (syncNextChunkWithPhase world config source phase)
      (fun report s' =>
        (report = loadedProgress config phase s ∧ report.complete = true ∧ s.Idle s') ∨
          s.Stepped world config source phase report s')
      (SyncStopped world (s.Ended world config source phase)) s := by
  unfold syncNextChunkWithPhase
  rw [Prog.wp_bind]
  refine Prog.wp_mono (wp_loadProgress hidentity) ?_ ?_
  · rintro progress s₁ ⟨rfl, hs₁⟩
    by_cases hcomplete : (loadedProgress config phase s).complete = true
    · rw [if_pos hcomplete]
      exact Or.inl ⟨rfl, hcomplete, hs₁⟩
    · rw [if_neg hcomplete, Prog.wp_bind]
      refine Prog.wp_mono (wp_prepareTargetChunk phase hdrifts hs₁) ?_ fun _ _ h => h.mono Or.inl
      intro _ s₂ hs₂
      refine Prog.wp_mono (wp_lockedChunk hsize hdrifts hs₂ (by simpa using hcomplete)) ?_
        fun _ _ h => h
      exact fun _ _ h => Or.inr h
  · exact fun _ s₁ hs₁ => hs₁.mono fun h => Or.inl (.of_idle hdrifts h)

end Calls

end BinlogCdc
