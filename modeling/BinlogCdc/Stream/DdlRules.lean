import BinlogCdc.Stream.DdlSteps

/-!
# The DDL handler runs its steps

A rule for every program of the DDL handler: from a state reached by steps of the handler
it reaches a state by such steps, and what it found out about the event's journal row
still holds there.
-/

namespace BinlogCdc

/-- A value survives a change of the error. -/
theorem eq_ok_of_mapError {ε ε' α : Type} {f : ε → ε'} {r : Except ε α} {a : α}
    (h : r.mapError f = .ok a) : r = .ok a := by
  cases r with
  | error e => cases h
  | ok b =>
    cases h
    rfl

/-- Only reads happened between two states. -/
structure Looked (s s' : Runtime) : Prop where
  /-- The target is the same. -/
  target : s'.target = s.target
  /-- The trace grew. -/
  trace : s.trace <+: s'.trace

theorem Looked.refl (s : Runtime) : Looked s s := ⟨rfl, List.prefix_refl _⟩

theorem Looked.trans {s s' s'' : Runtime} (h : Looked s s') (h' : Looked s' s'') :
    Looked s s'' := ⟨h'.target.trans h.target, h.trace.trans h'.trace⟩

/-- A journal row found under an event's key, with the event's other columns, is the event's. -/
theorem event_eq_of_validate {journal : Journal} {event : DdlEvent} {row : JournalRow}
    {kind : String} (hrow : journal.row event = some row)
    (h : validateJournalEventIdentity event row kind = .ok ()) : row.event = event := by
  have hkey := journal.keyed event.key row hrow
  have hempty : identityMismatches event row = [] := by
    unfold validateJournalEventIdentity at h
    dsimp only at h
    split at h
    · next hnil => exact List.isEmpty_iff.mp hnil
    · cases h
  simp only [identityMismatches, List.append_eq_nil_iff, ite_eq_right_iff, List.cons_ne_nil,
    imp_false, not_not] at hempty
  obtain ⟨⟨⟨hserver, hschema⟩, hraw⟩, hend⟩ := hempty
  simp only [DdlEvent.key, JournalKey.mk.injEq] at hkey
  obtain ⟨hidentity, hfile, hstart⟩ := hkey
  cases hr : row.event
  cases event
  simp_all

section Rules

variable {world : World} {config : StreamConfig} {entry : Option TargetChanges}
  {event : DdlEvent} {s₀ s : Runtime}
  {E : Stop ApplyBinlogError → Runtime → Prop}

/-! ## Reads -/

theorem wp_readJournal (h : DdlRun world.semantics entry event false s₀ s) {kind : String}
    {Q : Option JournalRow → Runtime → Prop}
    (hQ : ∀ row s', DdlRun world.semantics entry event false s₀ s' → Looked s s' →
      s.target.db.journal.row event = row → (∀ r, row = some r → r.event = event) → Q row s')
    (hE : ∀ stop s', DdlRun world.semantics entry event false s₀ s' → E stop s') :
    Prog.wp (readJournal world event kind) Q E s := by
  refine wp_operate ?_ fun stop => hE stop _ h.advance
  intro row target heffect
  cases hrow : s.target.db.journal.row event with
  | none =>
    rw [hrow] at heffect
    cases heffect
    refine hQ none _ (h.act (.look trivial)) ⟨rfl, List.prefix_append _ _⟩ hrow ?_
    intro r hr
    cases hr
  | some found =>
    rw [hrow] at heffect
    dsimp only at heffect
    cases hvalid : validateJournalEventIdentity event found kind with
    | error message =>
      rw [hvalid] at heffect
      cases heffect
    | ok =>
      rw [hvalid] at heffect
      cases heffect
      refine hQ _ _ (h.act (.look trivial)) ⟨rfl, List.prefix_append _ _⟩ hrow ?_
      intro r hr
      cases hr
      exact event_eq_of_validate hrow hvalid

theorem wp_readStatus (h : DdlRun world.semantics entry event false s₀ s)
    {Q : Option DdlReplayStatus → Runtime → Prop}
    (hnone : ∀ s', DdlRun world.semantics entry event false s₀ s' → Looked s s' →
      s.target.db.journal.row event = none → Q none s')
    (hsome : ∀ status evidence s', DdlRun world.semantics entry event false s₀ s' → Looked s s' →
      s.target.db.journal.row event = some ⟨event, evidence, status⟩ → Q (some status) s')
    (hE : ∀ stop s', DdlRun world.semantics entry event false s₀ s' → E stop s') :
    Prog.wp (readStatus world event) Q E s := by
  unfold readStatus
  simp only [Prog.wp_bind, Prog.wp_pure]
  refine wp_readJournal h ?_ hE
  intro row s' hs' hlooked hrow hevent
  cases row with
  | none => exact hnone s' hs' hlooked hrow
  | some r =>
    obtain ⟨found, evidence, status⟩ := r
    obtain rfl : found = event := hevent _ rfl
    exact hsome status evidence s' hs' hlooked hrow

theorem wp_readEvidence (h : DdlRun world.semantics entry event false s₀ s)
    {Q : Option DdlSemanticEvidence → Runtime → Prop}
    (hnone : ∀ s', DdlRun world.semantics entry event false s₀ s' → Looked s s' → Q none s')
    (hsome : ∀ status evidence s', DdlRun world.semantics entry event false s₀ s' → Looked s s' →
      s.target.db.journal.row event = some ⟨event, evidence, status⟩ → Q (some evidence) s')
    (hE : ∀ stop s', DdlRun world.semantics entry event false s₀ s' → E stop s') :
    Prog.wp (readEvidence world event) Q E s := by
  unfold readEvidence
  simp only [Prog.wp_bind, Prog.wp_pure]
  refine wp_readJournal h ?_ hE
  intro row s' hs' hlooked hrow hevent
  cases row with
  | none => exact hnone s' hs' hlooked
  | some r =>
    obtain ⟨found, evidence, status⟩ := r
    obtain rfl : found = event := hevent _ rfl
    exact hsome status evidence s' hs' hlooked hrow

theorem wp_ask (h : DdlRun world.semantics entry event false s₀ s) {α : Type} (label : α → TargetOp)
    {question : DdlInventory → Except String α} (hlook : ∀ a, (label a).IsLook)
    {Q : Except String α → Runtime → Prop}
    (hQ : ∀ answer s', DdlRun world.semantics entry event false s₀ s' → Looked s s' →
      (∀ a, answer = .ok a → ∃ x ∈ s'.trace, x.op = label a) → Q answer s')
    (hE : ∀ stop s', DdlRun world.semantics entry event false s₀ s' → E stop s') :
    Prog.wp (ask world label question) Q E s := by
  have hquiet : ∀ message, Q (.error message) s.advance := by
    intro message
    refine hQ _ _ h.advance ⟨rfl, List.prefix_refl _⟩ ?_
    intro a ha
    cases ha
  unfold Prog.wp ask
  cases world.outcome s.tick with
  | crashed => exact hE _ _ h.advance
  | refused message => exact hquiet message
  | done =>
    dsimp only
    cases question (world.inventory s.tick) with
    | error message => exact hquiet message
    | ok answer =>
      refine hQ _ _ (h.act (.look (hlook answer))) ⟨rfl, List.prefix_append _ _⟩ ?_
      intro a ha
      cases ha
      exact ⟨_, List.mem_append_right _ (List.mem_singleton.mpr rfl), rfl⟩

theorem wp_observeTargetState (h : DdlRun world.semantics entry event false s₀ s)
    {evidence : Option DdlSemanticEvidence} {Q : String → Runtime → Prop}
    (hQ : ∀ observed s', DdlRun world.semantics entry event false s₀ s' → Looked s s' →
      Observed s'.trace event observed → Q observed s')
    (hE : ∀ stop s', DdlRun world.semantics entry event false s₀ s' → E stop s') :
    Prog.wp (observeTargetState world event evidence) Q E s := by
  unfold observeTargetState
  rw [Prog.wp_bind]
  refine wp_ask h (fun observed => .observe event observed) (fun _ => trivial) ?_ hE
  intro answer s' hs' hlooked hobserved
  cases answer with
  | error message => exact hE _ _ hs'
  | ok observed => exact hQ observed s' hs' hlooked (hobserved observed rfl)

/-! ## Journal writes -/

theorem wp_insertJournal (row : JournalRow) (hrow : row.event = event)
    {Q : Unit → Runtime → Prop}
    (hQ : s.target.db.journal.row event = none → insertGuard row = true →
      Q () (s.perform (.writeJournal event) (s.target.putRow row)))
    (hE : ∀ stop, E stop s.advance) :
    Prog.wp (insertJournal world event row.evidence row.status) Q E s := by
  obtain ⟨found, evidence, status⟩ := row
  obtain rfl : found = event := hrow
  refine wp_operate ?_ hE
  intro _ target heffect
  unfold Journal.insert at heffect
  dsimp only at heffect
  cases hfound : s.target.db.journal.row found with
  | some other =>
    rw [hfound] at heffect
    cases heffect
  | none =>
    rw [hfound] at heffect
    dsimp only at heffect
    split at heffect
    · cases heffect
    · next journal hinsert =>
      split at hinsert
      · next hguard =>
        cases hinsert
        cases heffect
        exact hQ hfound hguard
      · cases hinsert

theorem wp_updateJournal {status : DdlReplayStatus} {change : JournalRow → JournalRow}
    {failure : String} {Q : Unit → Runtime → Prop}
    (hQ : ∀ evidence, s.target.db.journal.row event = some ⟨event, evidence, status⟩ →
      updateGuard ⟨event, evidence, status⟩ (change ⟨event, evidence, status⟩) = true →
      Q () (s.perform (.writeJournal event)
        (s.target.putRow (change ⟨event, evidence, status⟩))))
    (hE : ∀ stop, E stop s.advance) :
    Prog.wp (updateJournal world event status change failure) Q E s := by
  refine wp_operate ?_ hE
  intro _ target heffect
  unfold Journal.update at heffect
  cases hfound : s.target.db.journal.row event with
  | none =>
    rw [hfound] at heffect
    cases heffect
  | some row =>
    rw [hfound] at heffect
    dsimp only at heffect
    split at heffect
    · cases heffect
    · next affected journal hupdate =>
      split at hupdate
      · next hmatch =>
        obtain ⟨found, evidence, state⟩ := row
        obtain ⟨rfl, rfl⟩ : found = event ∧ state = status := hmatch
        split at hupdate
        · next hguard =>
          cases hupdate
          cases heffect
          exact hQ evidence hfound hguard
        · cases hupdate
      · cases hupdate
        cases heffect

theorem wp_ensureTranslationPending (entry : Option TargetChanges)
    (h : DdlRun world.semantics entry event false s₀ s)
    {Q : Unit → Runtime → Prop}
    (hQ : ∀ s', DdlRun world.semantics entry event false s₀ s' → Q () s')
    (hE : ∀ stop s', DdlRun world.semantics entry event false s₀ s' → E stop s') :
    Prog.wp (ensureTranslationPending world event) Q E s := by
  unfold ensureTranslationPending
  rw [Prog.wp_bind]
  refine wp_readStatus h ?_ ?_ hE
  · intro s' hs' _ _
    refine wp_insertJournal ⟨event, pendingEvidence, .translationPending⟩ rfl ?_
      fun stop => hE stop _ hs'.advance
    intro hnone _
    exact hQ _ (hs'.act (.recordPending hnone))
  · intro status evidence s' hs' _ _
    cases status with
    | translationPending => exact hQ s' hs'
    | _ => exact hE _ _ hs'

theorem wp_captureAutomaticDdlEvidence (h : DdlRun world.semantics entry event false s₀ s)
    {query : QueryEvent} {Q : DdlSemanticEvidence → Runtime → Prop}
    (hQ : ∀ evidence s', DdlRun world.semantics entry event false s₀ s' → Looked s s' → Q evidence s')
    (hE : ∀ stop s', DdlRun world.semantics entry event false s₀ s' → E stop s') :
    Prog.wp (captureAutomaticDdlEvidence world query event) Q E s := by
  unfold captureAutomaticDdlEvidence
  rw [Prog.wp_bind]
  refine wp_ask h (fun _ => .inventory) (fun _ => trivial) ?_ hE
  intro answer s' hs' hlooked _
  cases answer with
  | ok evidence => exact hQ evidence s' hs' hlooked
  | error message =>
    simp only [Prog.wp_bind, wp_stopWith]
    exact wp_ensureTranslationPending _ hs' (fun s' hs' => hE _ s' hs') hE

/-- The transformation of an event comes with evidence, and with the statement if the evidence
has to provide it. -/
theorem wp_transformAutomaticDdl (h : DdlRun world.semantics entry event false s₀ s)
    {query : QueryEvent} {Q : DdlTransformation × DdlSemanticEvidence → Runtime → Prop}
    (hQ : ∀ result s', DdlRun world.semantics entry event false s₀ s' → Looked s s' → Q result s')
    (hE : ∀ stop s', DdlRun world.semantics entry event false s₀ s' → E stop s') :
    Prog.wp (transformAutomaticDdl world query event) Q E s := by
  unfold transformAutomaticDdl
  simp only [Prog.wp_bind, wp_decided]
  refine ⟨?_, fun error _ => hE _ _ h⟩
  intro mode _
  split
  · rw [Prog.wp_bind]
    refine wp_captureAutomaticDdlEvidence h ?_ hE
    intro evidence s' hs' hlooked
    cases evidence.generatedSql with
    | none => exact hE _ _ hs'
    | some sql => exact hQ _ s' hs' hlooked
  · rw [Prog.wp_bind]
    refine wp_ask h (fun _ => .inventory) (fun _ => trivial) ?_ hE
    intro answer s' hs' hlooked _
    cases answer with
    | error message =>
      simp only [Prog.wp_bind, wp_stopWith]
      exact wp_ensureTranslationPending _ hs' (fun s' hs' => hE _ s' hs') hE
    | ok transformation =>
      simp only [Prog.wp_bind, Prog.wp_pure]
      refine wp_captureAutomaticDdlEvidence hs' ?_ hE
      intro evidence s'' hs'' hlooked'
      exact hQ _ s'' hs'' (hlooked.trans hlooked')

/-! ## The checkpoint transaction -/

/-- The event's row is in a state. -/
def Journal.Holds (journal : Journal) (event : DdlEvent) (status : DdlReplayStatus) : Prop :=
  ∃ evidence, journal.row event = some ⟨event, evidence, status⟩

theorem wp_checkpointDdlEvent (h : DdlRun world.semantics entry event false s₀ s)
    (htransaction : s.target.transaction = some {})
    (hrow : s.target.db.journal.Holds event .applied) {Q : Unit → Runtime → Prop}
    (hQ : ∀ s', DdlRun world.semantics entry event true s₀ s' → s'.target.transaction = none → Q () s')
    (hE : ∀ stop s', DdlRun world.semantics entry event false s₀ s' →
      (∃ changes, s'.target.transaction = some changes ∧ changes.work = []) → E stop s') :
    Prog.wp (checkpointDdlEvent world event event.checkpoint) Q E s := by
  have hsome : ∃ changes, s.target.transaction = some changes ∧ changes.work = [] :=
    ⟨{}, htransaction, rfl⟩
  unfold checkpointDdlEvent
  simp only [Prog.wp_bind]
  refine wp_operate ?_ fun stop => hE stop _ h.advance hsome
  intro locked target heffect
  cases heffect
  have hview : s.target.view.checkpoint = s.target.db.checkpoint := by
    simp [Target.view_of_some htransaction]
  rw [hview, wp_decided]
  have h₁ : DdlRun world.semantics entry event false s₀ (s.perform .lockCheckpoint s.target) :=
    h.act (.look trivial)
  refine ⟨?_, fun error _ => hE _ _ h₁ hsome⟩
  intro _ hbefore
  refine wp_transition ?_ fun stop => hE stop _ h₁.advance hsome
  -- The row is moved.
  have hmark : s.target.markCheckpointed event =
      ⟨s.target.db, some { checkpointed := [event] }⟩ := Target.change_of_some htransaction _
  have h₂ := h₁.act (.mark htransaction hrow hbefore)
  simp only [Runtime.perform_target] at h₂ ⊢
  rw [hmark] at h₂ ⊢
  refine wp_transition ?_ fun stop => hE stop _ h₂.advance ⟨_, rfl, rfl⟩
  -- The checkpoint is written.
  have hsave : Target.saveCheckpoint ⟨s.target.db, some { checkpointed := [event] }⟩
      event.checkpoint = ⟨s.target.db,
        some { checkpoint := some event.checkpoint, checkpointed := [event] }⟩ := rfl
  have h₃ := h₂.act (.save rfl hrow hbefore)
  simp only [Runtime.perform_target] at h₃ ⊢
  rw [hsave] at h₃ ⊢
  refine wp_transition ?_ fun stop => hE stop _ h₃.advance ⟨_, rfl, rfl⟩
  exact hQ _ (h₃.uncommitted.act (.commit rfl rfl hrow hbefore)) rfl

theorem wp_finalizeAutomaticDdlCheckpoint {table name : String}
    (hmode : config.checkpoint = .targetTable table name)
    (h : DdlRun world.semantics entry event false s₀ s) (hfree : s.target.Free entry)
    (hrow : s.target.db.journal.Holds event .applied) {Q : Unit → Runtime → Prop}
    (hQ : ∀ s', DdlRun world.semantics entry event true s₀ s' → s'.target.transaction = none → Q () s')
    (hE : ∀ stop s', DdlRun world.semantics entry event false s₀ s' → E stop s') :
    Prog.wp (finalizeAutomaticDdlCheckpoint world config event) Q E s := by
  unfold finalizeAutomaticDdlCheckpoint ensureResolvedDdlCheckpointAdvances
  simp only [Prog.wp_bind, hmode, StreamCheckpointContext.targetTable, if_true, loadCheckpoint]
  refine wp_operate ?_ fun stop => hE stop _ h.advance
  intro current target heffect
  cases heffect
  simp only [Prog.wp_update, Prog.wp_pure, wp_decided]
  have hload : DdlRun world.semantics entry event false s₀ (s.perform .loadStore s.target) :=
    h.act (.look trivial)
  have h₁ : DdlRun world.semantics entry event false s₀
      { s.perform .loadStore s.target with lastCheckpoint := s.target.db.checkpoint } :=
    hload.quiet rfl rfl rfl rfl rfl (Or.inl rfl)
  refine ⟨?_, fun error _ => hE _ _ h₁⟩
  intro _ _
  refine wp_transition ?_ fun stop => hE stop _ h₁.advance
  have h₂ := h₁.act (.begin hfree hrow)
  have hrow₂ : s.target.begin.db.journal.Holds event .applied := by
    obtain ⟨evidence, hevidence⟩ := hrow
    refine ⟨evidence, ?_⟩
    rw [Target.begin_db, hfree.onlyWork.view_journal]
    exact hevidence
  rw [Prog.wp_onError]
  refine wp_checkpointDdlEvent h₂ rfl hrow₂ ?_ ?_
  · intro s' hs' hnone
    exact hQ _ (DdlRun.quiet hs' rfl rfl rfl rfl rfl (Or.inr rfl)) hnone
  · intro stop s' hs' hsome
    cases stop with
    | crash => exact hE _ _ hs'
    | error error =>
      simp only [Prog.wp_bind, wp_stopWith]
      refine wp_transition ?_ fun stop => hE stop _ hs'.advance
      exact hE _ _ (hs'.act (.rollback hsome))

/-! ## Executing and verifying -/

theorem wp_prepare (h : DdlRun world.semantics entry event false s₀ s) {evidence : DdlSemanticEvidence}
    {Q : Unit → Runtime → Prop}
    (hQ : ∀ s', DdlRun world.semantics entry event false s₀ s' → Looked s s' →
      s'.target.db.journal.Unprepared event → evidence.isComplete = true →
      Q () (s'.perform (.writeJournal event) (s'.target.putRow ⟨event, evidence, .prepared⟩)))
    (hE : ∀ stop s', DdlRun world.semantics entry event false s₀ s' → E stop s') :
    Prog.wp (prepare world event evidence) Q E s := by
  unfold prepare
  rw [Prog.wp_bind]
  have hinsert : ∀ s', DdlRun world.semantics entry event false s₀ s' → Looked s s' →
      Prog.wp (insertJournal world event evidence .prepared) Q E s' := by
    intro s' hs' hlooked
    refine wp_insertJournal ⟨event, evidence, .prepared⟩ rfl ?_
      fun stop => hE stop _ hs'.advance
    intro hnone hguard
    exact hQ s' hs' hlooked (Or.inl hnone) (by simpa [insertGuard] using hguard)
  refine wp_readStatus h ?_ ?_ hE
  · intro s' hs' hlooked _
    exact hinsert s' hs' hlooked
  · intro status _ s' hs' hlooked _
    by_cases hpending : status = .translationPending
    · rw [if_pos (congrArg some hpending)]
      refine wp_updateJournal ?_ fun stop => hE stop _ hs'.advance
      intro old hrow hguard
      simp only [updateGuard, Bool.or_eq_true, Bool.and_eq_true, beq_iff_eq] at hguard
      simp at hguard
      obtain ⟨rfl, hcomplete⟩ := hguard
      exact hQ s' hs' hlooked (Or.inr hrow) hcomplete
    · rw [if_neg (by simpa using hpending)]
      exact hinsert s' hs' hlooked

theorem wp_markApplied (h : DdlRun world.semantics entry event false s₀ s) {evidence : DdlSemanticEvidence}
    (hrow : s.target.db.journal.row event = some ⟨event, evidence, .prepared⟩)
    (hobserved : Observed s.trace event evidence.expectedPostState) {Q : Unit → Runtime → Prop}
    (hQ : ∀ s', DdlRun world.semantics entry event false s₀ s' →
      s'.target = s.target.putRow ⟨event, evidence, .applied⟩ → Q () s')
    (hE : ∀ stop s', DdlRun world.semantics entry event false s₀ s' → E stop s') :
    Prog.wp (markApplied world event) Q E s := by
  unfold markApplied journalTransition
  rw [Prog.wp_bind]
  refine wp_updateJournal ?_ fun stop => hE stop _ h.advance
  intro old hold _
  obtain rfl : old = evidence := by simpa [hrow] using hold.symm
  exact hQ _ (h.act (.markApplied old hrow hobserved)) rfl

theorem wp_markBlocked (h : DdlRun world.semantics entry event false s₀ s) {Q : Unit → Runtime → Prop}
    (hQ : ∀ evidence s', DdlRun world.semantics entry event false s₀ s' →
      s.target.db.journal.row event = some ⟨event, evidence, .prepared⟩ →
      s'.target = s.target.putRow ⟨event, evidence, .blocked⟩ → s.trace <+: s'.trace → Q () s')
    (hE : ∀ stop s', DdlRun world.semantics entry event false s₀ s' → E stop s') :
    Prog.wp (markBlocked world event) Q E s := by
  unfold markBlocked journalTransition
  rw [Prog.wp_bind]
  refine wp_updateJournal ?_ fun stop => hE stop _ h.advance
  intro evidence hrow _
  exact hQ evidence _ (h.act (.markBlocked evidence hrow)) hrow rfl (List.prefix_append _ _)

theorem wp_verifyAutomaticDdlPostcondition (h : DdlRun world.semantics entry event false s₀ s)
    {evidence : DdlSemanticEvidence} {Q : Unit → Runtime → Prop}
    (hQ : ∀ s', DdlRun world.semantics entry event false s₀ s' → Looked s s' →
      Observed s'.trace event evidence.expectedPostState → Q () s')
    (hE : ∀ stop s', DdlRun world.semantics entry event false s₀ s' → E stop s') :
    Prog.wp (verifyAutomaticDdlPostcondition world event evidence) Q E s := by
  unfold verifyAutomaticDdlPostcondition
  rw [Prog.wp_bind]
  refine wp_observeTargetState h ?_ hE
  intro observed s' hs' hlooked hobserved
  split
  · next heq => exact hQ s' hs' hlooked (heq ▸ hobserved)
  · rw [Prog.wp_bind]
    exact wp_markBlocked hs' (fun _ s'' hs'' _ _ _ => hE _ s'' hs'') hE

variable {table name : String}

/-- A verified prepared event is marked applied and checkpointed. -/
theorem wp_markApplied_finalize (hmode : config.checkpoint = .targetTable table name)
    (h : DdlRun world.semantics entry event false s₀ s) (hfree : s.target.Free entry)
    {evidence : DdlSemanticEvidence}
    (hrow : s.target.db.journal.row event = some ⟨event, evidence, .prepared⟩)
    (hobserved : Observed s.trace event evidence.expectedPostState) {Q : Unit → Runtime → Prop}
    (hQ : ∀ s', DdlRun world.semantics entry event true s₀ s' → s'.target.transaction = none → Q () s')
    (hE : ∀ stop s', DdlRun world.semantics entry event false s₀ s' → E stop s') :
    Prog.wp (do
      markApplied world event
      finalizeAutomaticDdlCheckpoint world config event) Q E s := by
  rw [Prog.wp_bind]
  refine wp_markApplied h hrow hobserved ?_ hE
  intro s' hs' htarget
  refine wp_finalizeAutomaticDdlCheckpoint hmode hs' ?_ ?_ hQ hE
  · rw [htarget]
    exact hfree.putRow _
  · rw [htarget]
    exact ⟨evidence, Journal.row_put _ _ _ _⟩

theorem wp_prepareAndExecuteAutomaticDdl (hmode : config.checkpoint = .targetTable table name)
    (h : DdlRun world.semantics entry event false s₀ s) (hfree : s.target.Free entry) {query : QueryEvent}
    {Q : Unit → Runtime → Prop}
    (hQ : ∀ s', DdlRun world.semantics entry event true s₀ s' → s'.target.transaction = none → Q () s')
    (hE : ∀ stop s', DdlRun world.semantics entry event false s₀ s' → E stop s') :
    Prog.wp (prepareAndExecuteAutomaticDdl world config query event) Q E s := by
  unfold prepareAndExecuteAutomaticDdl
  rw [Prog.wp_bind]
  refine wp_transformAutomaticDdl h ?_ hE
  rintro ⟨transformation, captured⟩ s₁ h₁ hlooked₁
  dsimp only
  generalize suppressTargetSqlForConvergedState transformation captured = transformation
  set evidence : DdlSemanticEvidence := { captured with
    transformationVersion := transformation.version
    generatedSql := transformation.targetSql } with hevidence
  rw [Prog.wp_bind]
  refine wp_prepare h₁ ?_ hE
  intro s₂ h₂ hlooked₂ hunprepared hcomplete
  have hfree₂ : s₂.target.Free entry := by
    rw [hlooked₂.target, hlooked₁.target]
    exact hfree
  -- From the state after the execution, or without one, on.
  have hverify : ∀ s₃, DdlRun world.semantics entry event false s₀ s₃ → s₃.target.Free entry →
      s₃.target.db.journal.row event = some ⟨event, evidence, .prepared⟩ →
      Prog.wp (do
        verifyAutomaticDdlPostcondition world event evidence
        markApplied world event
        finalizeAutomaticDdlCheckpoint world config event) Q E s₃ := by
    intro s₃ h₃ hfree₃ hrow₃
    rw [Prog.wp_bind]
    refine wp_verifyAutomaticDdlPostcondition h₃ ?_ hE
    intro s₄ h₄ hlooked₄ hobserved
    refine wp_markApplied_finalize hmode h₄ ?_ ?_ hobserved hQ hE
    · rw [hlooked₄.target]
      exact hfree₃
    · rw [hlooked₄.target]
      exact hrow₃
  have hprepared := h₂.act (.prepare evidence hunprepared hcomplete)
  rw [Prog.wp_bind]
  unfold executeTransformedDdl
  cases hsql : transformation.targetSql with
  | none => exact hverify _ hprepared (hfree₂.putRow _) (Journal.row_put _ _ _ _)
  | some sql =>
    refine wp_transition ?_ fun stop => hE stop _ hprepared.advance
    refine hverify _ (h₂.tail (.prepareAndExecute evidence sql hfree₂ hunprepared hcomplete hsql))
      (Target.free_of_none rfl) ?_
    rw [Runtime.perform_target, Runtime.perform_target,
      (hfree₂.putRow _).onlyWork.executeDdl_journal event sql]
    exact Journal.row_put _ _ _ _

/-! ## Recovery -/

theorem wp_readBlockedEvidence (h : DdlRun world.semantics entry event false s₀ s)
    {Q : DdlSemanticEvidence → Runtime → Prop}
    (hQ : ∀ status evidence s', DdlRun world.semantics entry event false s₀ s' → Looked s s' →
      s.target.db.journal.row event = some ⟨event, evidence, status⟩ → Q evidence s')
    (hE : ∀ stop s', DdlRun world.semantics entry event false s₀ s' → E stop s') :
    Prog.wp (readBlockedEvidence world event) Q E s := by
  unfold readBlockedEvidence
  rw [Prog.wp_bind]
  refine wp_readEvidence h ?_ ?_ hE
  · intro s' hs' _
    exact hE _ _ hs'
  · intro status evidence s' hs' hlooked hrow
    exact hQ status evidence s' hs' hlooked hrow

/-- A blocked event is marked applied with verified evidence and checkpointed. -/
theorem wp_recoverBlocked_finalize {old : DdlSemanticEvidence} (new : DdlSemanticEvidence)
    (hmode : config.checkpoint = .targetTable table name)
    (h : DdlRun world.semantics entry event false s₀ s) (hfree : s.target.Free entry)
    (hrow : s.target.db.journal.row event = some ⟨event, old, .blocked⟩)
    (hnew : RecoveredEvidence world.semantics.IsLegacy event old new)
    (hobserved : Observed s.trace event new.expectedPostState) {Q : Unit → Runtime → Prop}
    (hQ : ∀ s', DdlRun world.semantics entry event true s₀ s' → s'.target.transaction = none → Q () s')
    (hE : ∀ stop s', DdlRun world.semantics entry event false s₀ s' → E stop s') :
    Prog.wp (do
      recoverBlocked world event new
      finalizeAutomaticDdlCheckpoint world config event) Q E s := by
  unfold recoverBlocked
  rw [Prog.wp_bind]
  refine wp_updateJournal ?_ fun stop => hE stop _ h.advance
  intro evidence hevidence _
  obtain rfl : evidence = old := by simpa [hrow] using hevidence.symm
  have h₁ := h.act (.recover evidence new hrow hnew hobserved)
  exact wp_finalizeAutomaticDdlCheckpoint hmode h₁ (hfree.putRow _)
    ⟨new, Journal.row_put _ _ _ _⟩ hQ hE

theorem wp_recoverBlockedAutomaticDdl (hmode : config.checkpoint = .targetTable table name)
    (h : DdlRun world.semantics entry event false s₀ s) (hfree : s.target.Free entry)
    (hblocked : s.target.db.journal.Holds event .blocked) {query : QueryEvent}
    {Q : Unit → Runtime → Prop}
    (hQ : ∀ s', DdlRun world.semantics entry event true s₀ s' → s'.target.transaction = none → Q () s')
    (hE : ∀ stop s', DdlRun world.semantics entry event false s₀ s' → E stop s') :
    Prog.wp (recoverBlockedAutomaticDdl world config query event) Q E s := by
  obtain ⟨old, hrow⟩ := hblocked
  unfold recoverBlockedAutomaticDdl verifiedBlockedRecoveryEvidence
  simp only [Prog.wp_bind]
  refine wp_readBlockedEvidence h ?_ hE
  intro status evidence s₁ h₁ hlooked₁ hevidence
  obtain ⟨rfl, rfl⟩ : old = evidence ∧ DdlReplayStatus.blocked = status := by
    simpa [hrow] using hevidence
  rw [wp_decided]
  refine ⟨?_, fun error _ => hE _ _ h₁⟩
  intro _ _
  refine wp_ask h₁ (fun _ => .inventory) (fun _ => trivial) ?_ hE
  intro answer s₂ h₂ hlooked₂ _
  rw [wp_decided]
  refine ⟨?_, fun error _ => hE _ _ h₂⟩
  intro expected _
  refine wp_observeTargetState h₂ ?_ hE
  intro observed s₃ h₃ hlooked₃ hobserved
  have hlooked := hlooked₁.trans (hlooked₂.trans hlooked₃)
  split
  · exact hE _ _ h₃
  · next hsame =>
    obtain rfl : observed = expected := not_not.mp hsame
    have hfinal := wp_recoverBlocked_finalize (E := E) (Q := Q)
      { old with expectedPostState := observed } hmode h₃
      (by rw [hlooked.target]; exact hfree) (by rw [hlooked.target]; exact hrow) (Or.inl rfl)
      hobserved hQ hE
    rw [Prog.wp_bind] at hfinal
    exact hfinal

theorem wp_reconcilePreparedAutomaticDdl (hmode : config.checkpoint = .targetTable table name)
    (h : DdlRun world.semantics entry event false s₀ s) (hfree : s.target.Free entry)
    (hprepared : s.target.db.journal.Holds event .prepared) {query : QueryEvent}
    {Q : Unit → Runtime → Prop}
    (hQ : ∀ s', DdlRun world.semantics entry event true s₀ s' → s'.target.transaction = none → Q () s')
    (hE : ∀ stop s', DdlRun world.semantics entry event false s₀ s' → E stop s') :
    Prog.wp (reconcilePreparedAutomaticDdl world config query event) Q E s := by
  obtain ⟨old, hrow⟩ := hprepared
  unfold reconcilePreparedAutomaticDdl
  rw [Prog.wp_bind]
  refine wp_readEvidence h ?_ ?_ hE
  · intro s₁ h₁ _
    exact hE _ _ h₁
  · intro status evidence s₁ h₁ hlooked₁ hevidence
    obtain ⟨rfl, rfl⟩ : old = evidence ∧ DdlReplayStatus.prepared = status := by
      simpa [hrow] using hevidence
    simp only [Prog.wp_bind, wp_decided]
    refine ⟨?_, fun error _ => hE _ _ h₁⟩
    intro _ _
    refine wp_observeTargetState h₁ ?_ hE
    intro observed s₂ h₂ hlooked₂ hobserved
    have hlooked := hlooked₁.trans hlooked₂
    cases hreconcile : reconcilePrepared old observed with
    | provenApplied =>
      have hsame : observed = old.expectedPostState := by
        unfold reconcilePrepared at hreconcile
        split at hreconcile
        · next hboth => exact hboth.2
        · cases hreconcile
      exact wp_markApplied_finalize hmode h₂ (by rw [hlooked.target]; exact hfree)
        (by rw [hlooked.target]; exact hrow) (hsame ▸ hobserved) hQ hE
    | blocked =>
      simp only [Prog.wp_bind, wp_stopWith]
      exact wp_markBlocked h₂ (fun _ s' hs' _ _ _ => hE _ s' hs') hE

/-! ## Legacy recovery -/

/-- The corrected evidence of a legacy event differs from the recorded one in the statement and
its version only. -/
theorem correctedJsonAliasEvidence_eq {semantics : DdlSemantics}
    {recorded fresh updated : DdlSemanticEvidence} {replacement : DdlTransformation}
    (h : correctedJsonAliasEvidence semantics event.rawSql recorded fresh replacement =
      .ok updated) :
    semantics.isLegacyJsonCheckCollisionEvent event.rawSql = true ∧
      updated = { recorded with
        transformationVersion := updated.transformationVersion
        generatedSql := updated.generatedSql } := by
  unfold correctedJsonAliasEvidence at h
  split at h
  · cases h
  · next hguard =>
    have hlegacy : semantics.isLegacyJsonCheckCollisionEvent event.rawSql = true := by
      simp only [Bool.or_eq_true, not_or] at hguard
      simpa using hguard.1.1.1.1.1
    cases hsql : replacement.targetSql with
    | none =>
      rw [hsql] at h
      cases h
    | some corrected =>
      rw [hsql] at h
      dsimp only at h
      split at h
      · cases h
      · cases h
        exact ⟨hlegacy, rfl⟩

/-- The recovery plan of a legacy event: its corrected evidence, and unless the statement is
still to be executed, the target has the expected state. -/
theorem wp_loadLegacyJsonAliasRecoveryPlan (h : DdlRun world.semantics entry event false s₀ s)
    {status : DdlReplayStatus} {old : DdlSemanticEvidence}
    (hrow : s.target.db.journal.row event = some ⟨event, old, status⟩)
    {Q : DdlSemanticEvidence × Bool → Runtime → Prop}
    (hQ : ∀ updated execute s', DdlRun world.semantics entry event false s₀ s' → Looked s s' →
      world.semantics.isLegacyJsonCheckCollisionEvent event.rawSql = true →
      updated = { old with
        transformationVersion := updated.transformationVersion
        generatedSql := updated.generatedSql } →
      (execute = false → Observed s'.trace event updated.expectedPostState) →
      Q (updated, execute) s')
    (hE : ∀ stop s', DdlRun world.semantics entry event false s₀ s' → E stop s') :
    Prog.wp (loadLegacyJsonAliasRecoveryPlan world event) Q E s := by
  unfold loadLegacyJsonAliasRecoveryPlan
  simp only [Prog.wp_bind]
  refine wp_readBlockedEvidence h ?_ hE
  intro found evidence s₁ h₁ hlooked₁ hevidence
  obtain ⟨rfl, rfl⟩ : old = evidence ∧ status = found := by simpa [hrow] using hevidence
  refine wp_ask h₁ (fun _ => .inventory) (fun _ => trivial) ?_ hE
  intro answer s₂ h₂ hlooked₂ _
  rw [wp_decided]
  refine ⟨?_, fun error _ => hE _ _ h₂⟩
  intro replacement _
  refine wp_observeTargetState h₂ ?_ hE
  intro observed s₃ h₃ hlooked₃ hobserved
  have hlooked := hlooked₁.trans (hlooked₂.trans hlooked₃)
  split
  · next hsame =>
    simp only [Prog.wp_bind, wp_decided, Prog.wp_pure]
    refine ⟨?_, fun error _ => hE _ _ h₃⟩
    intro updated hupdated
    obtain ⟨hlegacy, heq⟩ := correctedJsonAliasEvidence_eq (eq_ok_of_mapError hupdated)
    refine hQ _ false s₃ h₃ hlooked hlegacy heq ?_
    intro _
    rw [heq]
    exact hsame ▸ hobserved
  · split
    · exact hE _ _ h₃
    · simp only [Prog.wp_bind, Prog.wp_pure]
      refine wp_ask h₃ (fun _ => .inventory) (fun _ => trivial) ?_ hE
      intro fresh s₄ h₄ hlooked₄ _
      simp only [wp_decided]
      refine ⟨?_, fun error _ => hE _ _ h₄⟩
      intro fresh _
      refine ⟨?_, fun error _ => hE _ _ h₄⟩
      intro updated hupdated
      obtain ⟨hlegacy, heq⟩ := correctedJsonAliasEvidence_eq (eq_ok_of_mapError hupdated)
      exact hQ _ true s₄ h₄ (hlooked.trans hlooked₄) hlegacy heq fun hfalse => by cases hfalse

theorem wp_executeCorrectedJsonAlias (h : DdlRun world.semantics entry event false s₀ s)
    (hfree : s.target.Free entry)
    (hlegacy : world.semantics.isLegacyJsonCheckCollisionEvent event.rawSql = true)
    {old evidence : DdlSemanticEvidence}
    (hrow : s.target.db.journal.row event = some ⟨event, old, .blocked⟩)
    {Q : Unit → Runtime → Prop}
    (hQ : ∀ s', DdlRun world.semantics entry event false s₀ s' → s'.target.Free entry →
      s'.target.db.journal.row event = some ⟨event, old, .blocked⟩ →
      Observed s'.trace event evidence.expectedPostState → Q () s')
    (hE : ∀ stop s', DdlRun world.semantics entry event false s₀ s' → E stop s') :
    Prog.wp (executeCorrectedJsonAlias world event evidence) Q E s := by
  unfold executeCorrectedJsonAlias
  cases evidence.generatedSql with
  | none => exact hE _ _ h
  | some corrected =>
    dsimp only
    rw [Prog.wp_bind]
    refine wp_transition ?_ fun stop => hE stop _ h.advance
    have h₁ := h.act (.executeLegacy corrected hfree hlegacy ⟨old, hrow⟩)
    rw [Prog.wp_bind]
    refine wp_observeTargetState h₁ ?_ hE
    intro post s' hs' hlooked hobserved
    split
    · exact hE _ _ hs'
    · next hsame =>
      refine hQ s' hs' ?_ ?_ (not_not.mp hsame ▸ hobserved)
      · rw [hlooked.target]
        exact Target.free_of_none rfl
      · rw [hlooked.target, Runtime.perform_target, hfree.onlyWork.executeDdl_journal event corrected]
        exact hrow

/-- The legacy recovery finishes an event, or finds that it has nothing to do with it. -/
theorem wp_recoverLegacyJsonAlias (hmode : config.checkpoint = .targetTable table name)
    (h : DdlRun world.semantics entry event false s₀ s) (hfree : s.target.Free entry)
    {status : DdlReplayStatus} (hstatus : status = .prepared ∨ status = .blocked)
    (hholds : s.target.db.journal.Holds event status) {Q : Bool → Runtime → Prop}
    (hfinished : ∀ s', DdlRun world.semantics entry event true s₀ s' → s'.target.transaction = none →
      Q true s')
    (hnothing : ∀ s', DdlRun world.semantics entry event false s₀ s' → Looked s s' → Q false s')
    (hE : ∀ stop s', DdlRun world.semantics entry event false s₀ s' → E stop s') :
    Prog.wp (recoverLegacyJsonAlias world config event status) Q E s := by
  obtain ⟨old, hrow⟩ := hholds
  unfold recoverLegacyJsonAlias
  split
  · exact hnothing s h (Looked.refl s)
  · rw [Prog.wp_bind]
    refine wp_loadLegacyJsonAliasRecoveryPlan h hrow ?_ hE
    intro updated execute s₁ h₁ hlooked₁ hlegacy hupdated hobserved
    dsimp only
    split
    · exact hnothing s₁ h₁ hlooked₁
    · next hproceed =>
      -- From a blocked row on, with or without the execution of the corrected statement.
      have hrecover : ∀ s₂, DdlRun world.semantics entry event false s₀ s₂ → s₂.target.Free entry →
          s₂.target.db.journal.row event = some ⟨event, old, .blocked⟩ →
          Observed s₂.trace event updated.expectedPostState →
          Prog.wp (do
            recoverBlocked world event updated
            finalizeAutomaticDdlCheckpoint world config event
            pure true) Q E s₂ := by
        intro s₂ h₂ hfree₂ hrow₂ hobserved₂
        have hfinal := wp_recoverBlocked_finalize (E := E) (Q := fun _ s' => Q true s')
          updated hmode h₂ hfree₂ hrow₂ (Or.inr ⟨hlegacy, hupdated⟩) hobserved₂ hfinished hE
        simpa only [Prog.wp_bind, Prog.wp_pure] using hfinal
      have hexecute : ∀ s₂, DdlRun world.semantics entry event false s₀ s₂ → s₂.target.Free entry →
          s₂.target.db.journal.row event = some ⟨event, old, .blocked⟩ →
          s₁.trace <+: s₂.trace →
          Prog.wp (if execute then do
              executeCorrectedJsonAlias world event updated
              recoverBlocked world event updated
              finalizeAutomaticDdlCheckpoint world config event
              pure true
            else do
              recoverBlocked world event updated
              finalizeAutomaticDdlCheckpoint world config event
              pure true) Q E s₂ := by
        intro s₂ h₂ hfree₂ hrow₂ htrace
        cases execute with
        | true =>
          rw [if_pos rfl, Prog.wp_bind]
          exact wp_executeCorrectedJsonAlias h₂ hfree₂ hlegacy hrow₂
            (fun s' hs' hw hr ho => hrecover s' hs' hw hr ho) hE
        | false =>
          rw [if_neg Bool.false_ne_true]
          exact hrecover s₂ h₂ hfree₂ hrow₂ ((hobserved rfl).mono htrace)
      have hfree₁ : s₁.target.Free entry := by
        rw [hlooked₁.target]
        exact hfree
      split
      · rw [Prog.wp_bind]
        refine wp_markBlocked h₁ ?_ hE
        intro evidence s₂ h₂ hprepared htarget htrace
        rw [hlooked₁.target, hrow] at hprepared
        obtain ⟨rfl, -⟩ : old = evidence ∧ status = .prepared := by simpa using hprepared
        refine hexecute s₂ h₂ ?_ ?_ htrace
        · rw [htarget]
          exact hfree₁.putRow _
        · rw [htarget]
          exact Journal.row_put _ _ _ _
      · next hnot =>
        obtain rfl := hstatus.resolve_left hnot
        refine hexecute s₁ h₁ hfree₁ ?_ (List.prefix_refl _)
        rw [hlooked₁.target]
        exact hrow

/-! ## The handler -/

/-- Continuing an event ends with the connection free, or found nothing left to do. -/
theorem wp_resumeAutomaticDdl (hmode : config.checkpoint = .targetTable table name)
    (h : DdlRun world.semantics entry event false s₀ s) (hfree : s.target.Free entry) {query : QueryEvent}
    {Q : Unit → Runtime → Prop}
    (hfinished : ∀ s', DdlRun world.semantics entry event true s₀ s' → s'.target.transaction = none →
      ¬s.target.db.journal.Holds event .checkpointed → Q () s')
    (hnothing : ∀ s', DdlRun world.semantics entry event false s₀ s' → Looked s s' →
      s.target.db.journal.Holds event .checkpointed → Q () s')
    (hE : ∀ stop s', DdlRun world.semantics entry event false s₀ s' → E stop s') :
    Prog.wp (resumeAutomaticDdl world config query event) Q E s := by
  unfold resumeAutomaticDdl
  rw [Prog.wp_bind]
  refine wp_readStatus h ?_ ?_ hE
  · intro s₁ h₁ hlooked₁ hrow
    refine wp_prepareAndExecuteAutomaticDdl hmode h₁ (by rw [hlooked₁.target]; exact hfree) ?_ hE
    intro s' hs' hnone
    refine hfinished s' hs' hnone ?_
    rintro ⟨evidence, hholds⟩
    rw [hrow] at hholds
    cases hholds
  · intro status evidence s₁ h₁ hlooked₁ hrow
    have hfree₁ : s₁.target.Free entry := by
      rw [hlooked₁.target]
      exact hfree
    have hholds : s₁.target.db.journal.Holds event status := by
      rw [hlooked₁.target]
      exact ⟨evidence, hrow⟩
    have hfinal : status ≠ .checkpointed → ∀ s', DdlRun world.semantics entry event true s₀ s' →
        s'.target.transaction = none → Q () s' := by
      intro hne s' hs' hnone
      refine hfinished s' hs' hnone ?_
      rintro ⟨other, hother⟩
      rw [hrow] at hother
      cases hother
      exact hne rfl
    cases status with
    | translationPending =>
      exact wp_prepareAndExecuteAutomaticDdl hmode h₁ hfree₁ (hfinal nofun) hE
    | prepared =>
      dsimp only
      rw [Prog.wp_bind]
      refine wp_recoverLegacyJsonAlias hmode h₁ hfree₁ (Or.inl rfl) hholds (hfinal nofun) ?_ hE
      intro s₂ h₂ hlooked₂
      exact wp_reconcilePreparedAutomaticDdl hmode h₂ (by rw [hlooked₂.target]; exact hfree₁)
        (by rw [hlooked₂.target]; exact hholds) (hfinal nofun) hE
    | applied =>
      exact wp_finalizeAutomaticDdlCheckpoint hmode h₁ hfree₁ hholds (hfinal nofun) hE
    | checkpointed => exact hnothing s₁ h₁ hlooked₁ ⟨evidence, hrow⟩
    | blocked =>
      dsimp only
      rw [Prog.wp_bind]
      refine wp_recoverLegacyJsonAlias hmode h₁ hfree₁ (Or.inr rfl) hholds (hfinal nofun) ?_ hE
      intro s₂ h₂ hlooked₂
      exact wp_recoverBlockedAutomaticDdl hmode h₂ (by rw [hlooked₂.target]; exact hfree₁)
        (by rw [hlooked₂.target]; exact hholds) (hfinal nofun) hE

end Rules

end BinlogCdc
