import BinlogCdc.Sync.GuestRangeRules

/-!
# Runs of the repair

The rounds of a run form a chain, because a round has one result. A run that succeeds has read
every guest of the range once and in order, and the target has each of them as the source has
it. A run that fails leaves the batches before the failure committed and nothing of the failed
one, unless the answer to its commit was lost.
-/

namespace BinlogCdc

namespace GuestRange

section Runs

variable {world : GuestRangeWorld} {config : GuestRangeRepairConfig} {target : List DatabaseRow}
  {state : RangeState}

/-- The rounds that follow from a state. -/
abbrev Rounds (world : GuestRangeWorld) (config : GuestRangeRepairConfig) :
    RangeState → RangeState → Prop := Relation.ReflTransGen (RangeStep world config)

/-- A round keeps the invariant and the committed rows. -/
theorem RangeInvariant.step (hbounds : validateBounds config = .ok ()) {next : RangeState}
    (h : RangeInvariant world config target state) (hstep : RangeStep world config state next) :
    RangeInvariant world config target next ∧ state.2.committed <+: next.2.committed := by
  have hround := Prog.wp_value (wp_rangeRound hbounds h) hstep.2
  exact ⟨hround.1, hround.2.2⟩

/-- So do several rounds. -/
theorem RangeInvariant.rounds (hbounds : validateBounds config = .ok ()) {next : RangeState}
    (h : RangeInvariant world config target state) (hrounds : Rounds world config state next) :
    RangeInvariant world config target next ∧ state.2.committed <+: next.2.committed := by
  induction hrounds with
  | refl => exact ⟨h, List.prefix_refl _⟩
  | tail _ hstep ih =>
    obtain ⟨hnext, hkept⟩ := ih.1.step hbounds hstep
    exact ⟨hnext, ih.2.trans hkept⟩

/-- No round follows: the range is read, or the next round fails. -/
def Last (world : GuestRangeWorld) (config : GuestRangeRepairConfig) (state : RangeState) : Prop :=
  ∀ next, ¬ RangeStep world config state next

/-- The loop goes through rounds to a last state. It ends there, or the next round fails. -/
theorem wp_rangeLoop (hbounds : validateBounds config = .ok ()) (fuel : Nat)
    (h : RangeInvariant world config target state)
    (hfuel : config.expectedRows ≤ state.1.report.scanned + fuel) :
    Prog.wp (rangeLoop world config fuel state.1)
      (fun progress s' => Rounds world config state (progress, s') ∧
        Last world config (progress, s') ∧ RangeInvariant world config target (progress, s') ∧
        progress.report.scanned = config.expectedRows)
      (Failed fun s' => ∃ last, Rounds world config state last ∧ Last world config last ∧
        RolledBack last.2 s') state.2 := by
  induction fuel generalizing state with
  | zero =>
    have hdone : ¬ state.1.report.scanned < config.expectedRows := by omega
    rw [rangeLoop, if_neg hdone]
    exact ⟨.refl, fun _ hstep => hdone hstep.1, h, le_antisymm h.scanned_le (Nat.not_lt.mp hdone)⟩
  | succ fuel ih =>
    rw [rangeLoop]
    by_cases hmore : state.1.report.scanned < config.expectedRows
    · rw [if_pos hmore, Prog.wp_bind]
      have hround := wp_rangeRound hbounds h
      unfold Prog.wp at hround
      unfold Prog.wp
      cases hrun : rangeRound world config state.1 state.2 with
      | mk result s₁ =>
        rw [hrun] at hround
        cases result with
        | ok progress =>
          obtain ⟨hnext, hgrows, -⟩ := hround
          have hstep : RangeStep world config state (progress, s₁) := ⟨hmore, hrun⟩
          have hrest := ih hnext (show config.expectedRows ≤ progress.report.scanned + fuel by omega)
          refine Prog.wp_mono hrest ?_ ?_
          · rintro progress' s' ⟨hrounds, hfinal⟩
            exact ⟨.head hstep hrounds, hfinal⟩
          · rintro stop s' ⟨hstop, last, hrounds, hlast⟩
            exact ⟨hstop, last, .head hstep hrounds, hlast⟩
        | error stop =>
          obtain ⟨hstop, hfailed⟩ := hround
          refine ⟨hstop, state, .refl, fun next hnext => ?_, hfailed⟩
          have hagain := hnext.2
          rw [hrun] at hagain
          cases hagain
    · rw [if_neg hmore]
      exact ⟨.refl, fun _ hstep => hmore hstep.1, h,
        le_antisymm h.scanned_le (Nat.not_lt.mp hmore)⟩

/-! ## What a run does -/

/-- The state before the first round. -/
def firstState (target : List DatabaseRow) : RangeState :=
  (.initial, GuestRangeRuntime.start target)

/-- The target has all guests of the range as the source has them. -/
structure Copied (world : GuestRangeWorld) (config : GuestRangeRepairConfig)
    (target : List DatabaseRow) (report : GuestRangeRepairReport) (s : GuestRangeRuntime) :
    Prop where
  /-- The pages have each guest of the range once and in order. -/
  covered : HasGuests s.pages.flatten
    (List.range' config.start (config.finish + 1 - config.start))
  /-- All expected rows were scanned. -/
  scanned : report.scanned = config.expectedRows
  /-- Each of them was inserted or unchanged. -/
  counted : report.inserted + report.unchanged = config.expectedRows
  /-- The target has every row as it was read. -/
  stored : ∀ row ∈ s.pages.flatten,
    s.committed.find? (world.identifies row.primaryKey) = some row
  /-- Rows were only inserted. -/
  kept : ∃ rows, s.committed = target ++ rows ∧ rows.length = report.inserted

/-- The batches of a run that returned: all that were completed are committed, and nothing else,
unless the answer to a commit was lost. -/
structure BatchesCommitted (world : GuestRangeWorld) (config : GuestRangeRepairConfig)
    (target : List DatabaseRow) (last : RangeState) (s : GuestRangeRuntime) : Prop where
  /-- The last state was reached by rounds. -/
  reached : Rounds world config (firstState target) last
  /-- No round follows, if the preflight allowed any. -/
  final : world.preflight = .ok (config.expectedRows, config.start, config.finish) →
    Last world config last
  /-- Every batch that was completed stays committed. -/
  kept : ∀ state, Rounds world config (firstState target) state →
    Rounds world config state last → state.2.committed <+: s.committed
  /-- Nothing of a failed batch is committed, unless the answer to its commit was lost. -/
  committed : s.commitLost = false → s.committed = last.2.committed

theorem batchesCommitted (hbounds : validateBounds config = .ok ()) {last : RangeState}
    {s : GuestRangeRuntime} (hrounds : Rounds world config (firstState target) last)
    (hlast : world.preflight = .ok (config.expectedRows, config.start, config.finish) →
      Last world config last)
    (h : RolledBack last.2 s) : BatchesCommitted world config target last s where
  reached := hrounds
  final := hlast
  kept state hstate hrest := by
    have hinvariant := (rangeInvariant_initial world config target).rounds hbounds hstate
    exact (hinvariant.1.rounds hbounds hrest).2.trans h.kept
  committed := h.committed

/-- The results of a run before the source is closed. -/
theorem wp_repairRange (hbounds : validateBounds config = .ok ()) :
    Prog.wp (repairRange world config)
      (fun report s => Copied world config target report s ∧
        ∃ last, BatchesCommitted world config target last s)
      (Failed fun s => ∃ last, BatchesCommitted world config target last s)
      (GuestRangeRuntime.start target) := by
  obtain ⟨hwidth, hpositive, -, -⟩ := validateBounds_ok hbounds
  have hstart : ∀ message, world.preflight = .error message ∨
      (∃ actual, world.preflight = .ok actual ∧
        actual ≠ (config.expectedRows, config.start, config.finish)) →
      Failed (fun s => ∃ last, BatchesCommitted world config target last s) (.error message)
        (GuestRangeRuntime.start target) := by
    intro message hrefused
    refine ⟨by simp, firstState target, batchesCommitted hbounds .refl (fun haccepted => ?_)
      (Extends.refl _).rolledBack⟩
    rw [haccepted] at hrefused
    obtain hrefused | ⟨actual, hactual, hne⟩ := hrefused
    · cases hrefused
    · exact absurd (Except.ok.inj hactual).symm hne
  rw [repairRange, Prog.wp_bind]
  cases hpreflight : world.preflight with
  | error message => exact hstart message (.inl hpreflight)
  | ok actual =>
    rw [show (decided (.ok actual) : Range _) = pure actual from rfl, Prog.wp_pure]
    by_cases hrange : actual ≠ (config.expectedRows, config.start, config.finish)
    · rw [if_pos hrange]
      exact hstart _ (.inr ⟨actual, hpreflight, hrange⟩)
    · rw [if_neg hrange, Prog.wp_bind]
      refine Prog.wp_mono (wp_rangeLoop hbounds config.expectedRows
        (rangeInvariant_initial world config target) (Nat.le_add_left _ _)) ?_ ?_
      · rintro progress s ⟨hrounds, hlast, hinvariant, hscanned⟩
        have hcommitted : BatchesCommitted world config target (progress, s) s :=
          batchesCommitted hbounds hrounds (fun _ => hlast) (Extends.refl _).rolledBack
        by_cases hcoverage : progress.report.scanned ≠ config.expectedRows ∨
            progress.after ≠ some config.finish
        · rw [if_pos hcoverage]
          exact ⟨by simp, _, hcommitted⟩
        · rw [if_neg hcoverage, Prog.wp_pure]
          have hcovered := hinvariant.covered
          have hcounted := hinvariant.counted
          obtain ⟨rows, hrows⟩ : target <+: s.committed := hinvariant.kept
          have hinserted : progress.report.inserted + target.length = s.committed.length :=
            hinvariant.inserted
          refine ⟨⟨?_, hscanned, hcounted.trans hscanned, ?_, rows, hrows.symm, ?_⟩, _, hcommitted⟩
          · have hsame : config.finish + 1 - config.start = progress.report.scanned := by
              omega
            rw [hsame]
            exact hcovered
          · intro row hrow
            have hfound := hinvariant.stored row hrow
            rwa [GuestRangeRuntime.find, hinvariant.idle] at hfound
          · rw [← hrows, List.length_append] at hinserted
            omega
      · rintro stop s ⟨hstop, last, hrounds, hlast, hfailed⟩
        exact ⟨hstop, last, batchesCommitted hbounds hrounds (fun _ => hlast) hfailed⟩

/-- Closing the source changes nothing in the target. -/
theorem wp_withCleanup {c : Range GuestRangeRepairReport} {s : GuestRangeRuntime}
    {Q : GuestRangeRepairReport → GuestRangeRuntime → Prop} {R : GuestRangeRuntime → Prop}
    (hc : Prog.wp c (fun report s' => Q report s' ∧ R s') (Failed R) s)
    (hQ : ∀ report s', Q report s' → Q report s'.ticked) (hR : ∀ s', R s' → R s'.ticked)
    (operation : String) :
    Prog.wp (withCleanup c (finishSource world) operation)
      (fun report s' => Q report s' ∧ R s') (Failed R) s := by
  have hfinish : ∀ s', (finishSource world s').2 = s'.ticked ∧
      (RangeStop.result (finishSource world s').1).isSome = true := by
    intro s'
    unfold finishSource backendOperation
    cases world.outcome s'.tick <;> exact ⟨rfl, rfl⟩
  unfold Prog.wp at hc ⊢
  unfold withCleanup
  cases hrun : c s with
  | mk result s₁ =>
    rw [hrun] at hc
    obtain ⟨hstate, hsome⟩ := hfinish s₁
    obtain ⟨cleaned, hcleaned⟩ := Option.isSome_iff_exists.mp hsome
    cases result with
    | ok report =>
      rw [show RangeStop.result (.ok report) = some (.ok report) from rfl]
      dsimp only
      rw [hcleaned, hstate]
      cases cleaned with
      | ok _ => exact ⟨hQ report s₁ hc.1, hR s₁ hc.2⟩
      | error message => exact ⟨by simp, hR s₁ hc.2⟩
    | error stop =>
      obtain ⟨hstop, hfailed⟩ := hc
      cases stop with
      | diverged => exact absurd rfl hstop
      | error message =>
        rw [show RangeStop.result (.error (.error message)) =
          some (.error message : Except String GuestRangeRepairReport) from rfl]
        dsimp only
        rw [hcleaned, hstate]
        cases cleaned <;> exact ⟨by simp, hR s₁ hfailed⟩

/-- A repair of a validated range returns. If it succeeds the target has every guest of the range
as the source has it; in any case rows were only inserted, and what is committed is what the
completed batches inserted, and at most a last batch whose commit was not answered. -/
theorem repairWithBackend_copies (world : GuestRangeWorld) {config : GuestRangeRepairConfig}
    (target : List DatabaseRow) (hbounds : validateBounds config = .ok ()) :
    (repairWithBackend world config (.start target)).1 ≠ .error .diverged ∧
    (∀ report, (repairWithBackend world config (.start target)).1 = .ok report →
      Copied world config target report (repairWithBackend world config (.start target)).2) ∧
    target <+: (repairWithBackend world config (.start target)).2.committed ∧
    ∃ last, BatchesCommitted world config target last
      (repairWithBackend world config (.start target)).2 := by
  have hrange : Prog.wp (withCleanup (repairRange world config) (finishSource world)
      "close source snapshot")
      (fun report s => Copied world config target report s ∧
        ∃ last, BatchesCommitted world config target last s)
      (Failed fun s => ∃ last, BatchesCommitted world config target last s)
      (GuestRangeRuntime.start target) := by
    apply wp_withCleanup (wp_repairRange hbounds)
    · rintro report s ⟨hcovered, hscanned, hcounted, hstored, hkept⟩
      exact ⟨hcovered, hscanned, hcounted, hstored, hkept⟩
    · rintro s ⟨last, hreached, hfinal, hkept, hcommitted⟩
      exact ⟨last, hreached, hfinal, hkept, hcommitted⟩
  have hrun : repairWithBackend world config (.start target) =
      withCleanup (repairRange world config) (finishSource world) "close source snapshot"
        (.start target) := by
    rw [repairWithBackend, hbounds]
  rw [hrun]
  have hkept : ∀ {last : RangeState} {s : GuestRangeRuntime},
      BatchesCommitted world config target last s → target <+: s.committed :=
    fun h => h.kept _ .refl h.reached
  unfold Prog.wp at hrange
  split at hrange
  case h_1 report s hresult =>
    rw [hresult]
    obtain ⟨hcopied, last, hlast⟩ := hrange
    refine ⟨by simp, fun report' hreport => ?_, hkept hlast, last, hlast⟩
    obtain rfl := Except.ok.inj hreport
    exact hcopied
  case h_2 stop s hresult =>
    rw [hresult]
    obtain ⟨hstop, last, hlast⟩ := hrange
    refine ⟨fun hdiverged => hstop (Except.error.inj hdiverged), fun report' hreport => ?_,
      hkept hlast, last, hlast⟩
    cases hreport

end Runs

/-! ## Two runs at the end of the 64-bit numbers -/

/-- The guest with the largest number. -/
def lastGuest : DatabaseRow where
  primaryKey := ⟨["18446744073709551615"]⟩
  values := [("guest_id", some "18446744073709551615"), ("utm_id", none)]

/-- The range of the last guest alone. -/
def lastGuestConfig : GuestRangeRepairConfig where
  start := 18446744073709551615
  finish := 18446744073709551615
  expectedRows := 1
  batchSize := 100
  finish_lt := by decide

/-- A source with the last guest, and a target whose operations end in some way. -/
def lastGuestWorld (outcome : Nat → BackendOutcome) : GuestRangeWorld where
  preflight := .ok (1, 18446744073709551615, 18446744073709551615)
  page _ := .ok [lastGuest]
  parent _ := .ok ()
  outcome := outcome
  stored _ := lastGuest
  identifies key row := row.primaryKey == key

theorem repairWithBackend_copies_last :
    Copied (lastGuestWorld fun _ => .done) lastGuestConfig [] ⟨1, 1, 0, 1⟩
      (repairWithBackend (lastGuestWorld fun _ => .done) lastGuestConfig (.start [])).2 := by
  have hbounds : validateBounds lastGuestConfig = .ok () := by
    decide +kernel
  have hreport : (repairWithBackend (lastGuestWorld fun _ => .done) lastGuestConfig
      (.start [])).1 = .ok ⟨1, 1, 0, 1⟩ := by
    decide +kernel
  exact (repairWithBackend_copies _ [] hbounds).2.1 _ hreport

/-- The connection is closed by the commit after it took effect. -/
def lostCommitWorld : GuestRangeWorld :=
  lastGuestWorld fun tick => if tick = 6 then .lost "connection closed" else .done

/-- A commit that took effect without an answer fails the batch and leaves its rows committed. -/
theorem repairWithBackend_lost_commit :
    (repairWithBackend lostCommitWorld lastGuestConfig (.start [])).1 =
        .error (.error "connection closed") ∧
      (repairWithBackend lostCommitWorld lastGuestConfig (.start [])).2.committed =
        [lastGuest] := by
  decide +kernel

end GuestRange

end BinlogCdc
