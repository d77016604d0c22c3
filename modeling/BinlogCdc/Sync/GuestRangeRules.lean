import BinlogCdc.Sync.GuestRange

/-!
# The repair copies the range

A round of the repair reads the next guests of the range, in order, and leaves each of them in
the target as the source has it. It inserts only, in a transaction of its own: a failed round
leaves the committed rows as they were, unless its commit was answered with an error and took
effect. The rounds end because every page has a row of the range.
-/

namespace BinlogCdc

namespace GuestRange

/-! ## Pages -/

section Pages

variable {config : GuestRangeRepairConfig}

/-- The rows have these guests. -/
def HasGuests (rows : List DatabaseRow) (ids : List Nat) : Prop :=
  List.Forall₂ (fun row id => guestId row = .ok id) rows ids

theorem checkedAdd_eq_some {a b c : Nat} :
    checkedAdd a b = some c ↔ a + b = c ∧ a + b < 2 ^ 64 := by
  unfold checkedAdd
  by_cases h : a + b < 2 ^ 64
  · rw [if_pos h, Option.some.injEq]
    exact ⟨fun hsum => ⟨hsum, h⟩, And.left⟩
  · rw [if_neg h]
    exact ⟨nofun, fun hsum => absurd hsum.2 h⟩

theorem addU64_eq {a b : Nat} (h : a + b < 2 ^ 64) : addU64 a b = a + b := Nat.mod_eq_of_lt h

/-- Checked rows continue the range without a gap. -/
theorem validateRows_ok {rows : List DatabaseRow} {expected : Option Nat} {before last : Nat}
    (h : validateRows config expected before rows = .ok last) :
    (rows = [] ∧ last = before) ∨
      ∃ first, expected = some first ∧ HasGuests rows (List.range' first rows.length) ∧
        last + 1 = first + rows.length ∧ last ≤ config.finish := by
  induction rows generalizing expected before with
  | nil => exact .inl ⟨rfl, (Except.ok.inj h).symm⟩
  | cons row rows ih =>
    rw [validateRows] at h
    obtain ⟨id, hid, h⟩ := bind_eq_ok.mp h
    by_cases hwrong : some id ≠ expected ∨ config.finish < id
    · rw [if_pos hwrong] at h
      cases h
    · rw [if_neg hwrong] at h
      replace h : validateRows config (checkedAdd id 1) id rows = .ok last := h
      rw [not_or, not_not, Nat.not_lt] at hwrong
      obtain ⟨hexpected, hfinish⟩ := hwrong
      refine .inr ⟨id, hexpected.symm, ?_⟩
      rcases ih h with ⟨rfl, rfl⟩ | ⟨first, hfirst, hguests, hlast, hend⟩
      · exact ⟨.cons hid .nil, rfl, hfinish⟩
      · obtain ⟨rfl, -⟩ := checkedAdd_eq_some.mp hfirst
        refine ⟨.cons hid hguests, ?_, hend⟩
        rw [List.length_cons]
        omega

/-- A checked page is not empty, not too long, and continues the range. -/
theorem validatePage_ok {rows : List DatabaseRow} {after : Option Nat} {last : Nat}
    (h : validatePage config after rows = .ok last) :
    rows ≠ [] ∧ rows.length ≤ config.batchSize ∧
      HasGuests rows (List.range' (after.elim config.start (· + 1)) rows.length) ∧
      last + 1 = after.elim config.start (· + 1) + rows.length ∧ last ≤ config.finish := by
  unfold validatePage at h
  by_cases hsize : rows.isEmpty ∨ config.batchSize < rows.length
  · rw [if_pos hsize] at h
    cases h
  · rw [if_neg hsize] at h
    rw [not_or, Nat.not_lt] at hsize
    obtain ⟨hempty, hlength⟩ := hsize
    have hne : rows ≠ [] := by
      simpa using hempty
    refine ⟨hne, hlength, ?_⟩
    rcases validateRows_ok h with ⟨hnil, -⟩ | ⟨first, hfirst, hguests, hlast, hend⟩
    · exact absurd hnil hne
    · cases after with
      | none =>
        obtain rfl := Option.some.inj hfirst
        exact ⟨hguests, hlast, hend⟩
      | some id =>
        obtain ⟨rfl, -⟩ := checkedAdd_eq_some.mp hfirst
        exact ⟨hguests, hlast, hend⟩

/-- The range is as wide as expected. -/
theorem validateBounds_ok (h : validateBounds config = .ok ()) :
    config.start + config.expectedRows = config.finish + 1 ∧ 0 < config.expectedRows ∧
      config.expectedRows < 2 ^ 64 ∧ config.batchSize ≤ maxBatchSize := by
  unfold validateBounds at h
  dsimp only at h
  by_cases hwidth : (checkedSub config.finish config.start).bind (checkedAdd · 1) ≠
      some config.expectedRows ∨ config.expectedRows = 0
  · rw [if_pos hwidth] at h
    cases h
  · rw [if_neg hwidth] at h
    by_cases hbatch : config.batchSize = 0 ∨ maxBatchSize < config.batchSize
    · rw [if_pos hbatch] at h
      cases h
    · rw [not_or, not_not] at hwidth
      obtain ⟨hcount, hpositive⟩ := hwidth
      obtain ⟨width, hsub, hadd⟩ := Option.bind_eq_some_iff.mp hcount
      obtain ⟨hsum, hlt⟩ := checkedAdd_eq_some.mp hadd
      unfold checkedSub at hsub
      by_cases hle : config.start ≤ config.finish
      · rw [if_pos hle] at hsub
        obtain rfl := Option.some.inj hsub
        omega
      · rw [if_neg hle] at hsub
        cases hsub

end Pages

/-! ## Operations -/

/-- The rows committed before stay committed, and the session sees at least what it saw. -/
structure Extends (s s' : GuestRangeRuntime) : Prop where
  committed : s'.committed = s.committed
  working : s.working <+: s'.working
  pages : s'.pages = s.pages
  commitLost : s'.commitLost = s.commitLost

theorem Extends.refl (s : GuestRangeRuntime) : Extends s s := ⟨rfl, List.prefix_refl _, rfl, rfl⟩

theorem Extends.trans {s s' s'' : GuestRangeRuntime} (h : Extends s s') (h' : Extends s' s'') :
    Extends s s'' :=
  ⟨h'.committed.trans h.committed, h.working.trans h'.working, h'.pages.trans h.pages,
    h'.commitLost.trans h.commitLost⟩

/-- The state after an operation without an effect. -/
def GuestRangeRuntime.ticked (s : GuestRangeRuntime) : GuestRangeRuntime :=
  { s with tick := s.tick + 1 }

theorem extends_ticked (s : GuestRangeRuntime) : Extends s s.ticked := ⟨rfl, List.prefix_refl _, rfl, rfl⟩

section Rules

variable {world : GuestRangeWorld} {α : Type} {s : GuestRangeRuntime}
  {Q : α → GuestRangeRuntime → Prop} {E : RangeStop → GuestRangeRuntime → Prop}

/-- An error is returned in a state with a property. -/
def Failed (R : GuestRangeRuntime → Prop) (stop : RangeStop) (s : GuestRangeRuntime) : Prop :=
  stop ≠ .diverged ∧ R s

theorem wp_backendOperation {answer : GuestRangeRuntime → α}
    {effect : GuestRangeRuntime → GuestRangeRuntime} {R : GuestRangeRuntime → Prop}
    (hQ : Q (answer s) (effect s.ticked)) (hnone : R s.ticked) (hlost : R (effect s.ticked)) :
    Prog.wp (backendOperation world answer effect) Q (Failed R) s := by
  unfold Prog.wp backendOperation
  cases world.outcome s.tick with
  | done => exact hQ
  | refused message => exact ⟨by simp, hnone⟩
  | lost message => exact ⟨by simp, hlost⟩

theorem wp_decided {result : Except String α} {R : GuestRangeRuntime → Prop}
    (hok : ∀ a, result = .ok a → Q a s) (herror : R s) :
    Prog.wp (decided result) Q (Failed R) s := by
  cases result with
  | ok a => exact hok a rfl
  | error message => exact ⟨by simp, herror⟩

theorem wp_requireParent {Q : Unit → GuestRangeRuntime → Prop} {R : GuestRangeRuntime → Prop}
    (hok : Q () s.ticked) (herror : R s.ticked) :
    Prog.wp (requireParent world) Q (Failed R) s := by
  unfold Prog.wp requireParent
  cases world.parent s.tick with
  | ok _ => exact hok
  | error message => exact ⟨by simp, herror⟩

theorem wp_readTarget {row : DatabaseRow} {Q : Option DatabaseRow → GuestRangeRuntime → Prop}
    {R : GuestRangeRuntime → Prop} (hok : Q (s.find world row.primaryKey) s.ticked)
    (herror : R s.ticked) : Prog.wp (readTarget world row) Q (Failed R) s :=
  wp_backendOperation hok herror herror

theorem wp_readPage {Q : List DatabaseRow → GuestRangeRuntime → Prop}
    {R : GuestRangeRuntime → Prop}
    (hok : ∀ rows, Q rows { s.ticked with pages := s.pages ++ [rows] }) (herror : R s.ticked) :
    Prog.wp (readPage world) Q (Failed R) s := by
  unfold Prog.wp readPage
  cases world.page s.tick with
  | ok rows => exact hok rows
  | error message => exact ⟨by simp, herror⟩

/-- What the session finds it goes on finding. -/
theorem find_of_prefix {s' : GuestRangeRuntime} {key : PrimaryKey} {row : DatabaseRow}
    (h : s.find world key = some row) (hbegins : s.working <+: s'.working) :
    s'.find world key = some row := by
  obtain ⟨more, hmore⟩ := hbegins
  rw [GuestRangeRuntime.find] at h ⊢
  rw [← hmore, List.find?_append, h]
  rfl

/-- Missing rows are inserted, the others are counted as unchanged. -/
theorem wp_insertRows (rows : List DatabaseRow) (report : GuestRangeRepairReport)
    (hsize : report.inserted + report.unchanged + rows.length < 2 ^ 64) :
    Prog.wp (insertRows world report rows)
      (fun report' s' => Extends s s' ∧
        report'.inserted + report'.unchanged =
          report.inserted + report.unchanged + rows.length ∧
        report'.inserted + s.working.length = report.inserted + s'.working.length)
      (Failed (Extends s)) s := by
  induction rows generalizing report s with
  | nil => exact ⟨Extends.refl s, rfl, rfl⟩
  | cons row rows ih =>
    rw [List.length_cons] at hsize
    have hticks : Extends s s.ticked.ticked := (extends_ticked s).trans (extends_ticked _)
    rw [insertRows, Prog.wp_bind]
    refine wp_requireParent ?_ (extends_ticked s)
    rw [Prog.wp_bind]
    refine wp_readTarget ?_ hticks
    cases hfound : s.ticked.find world row.primaryKey with
    | some existing =>
      dsimp only
      by_cases hequal : existing = row
      · rw [if_pos hequal]
        have hcount := addU64_eq (show report.unchanged + 1 < 2 ^ 64 by omega)
        refine Prog.wp_mono (ih { report with unchanged := addU64 report.unchanged 1 } ?_) ?_ ?_
        · dsimp only
          omega
        · rintro report' s' ⟨hextends, hrows, hinserted⟩
          dsimp only at hrows hinserted
          rw [hcount] at hrows
          refine ⟨hticks.trans hextends, ?_, hinserted⟩
          rw [hrows, List.length_cons]
          omega
        · rintro stop s' ⟨hstop, hextends⟩
          exact ⟨hstop, hticks.trans hextends⟩
      · rw [if_neg hequal]
        exact ⟨by simp, hticks⟩
    | none =>
      dsimp only
      rw [Prog.wp_bind]
      have hinsert : Extends s { s.ticked.ticked.ticked with
          working := s.working ++ [world.stored (s.tick + 1 + 1)] } :=
        ⟨rfl, List.prefix_append _ _, rfl, rfl⟩
      refine wp_backendOperation ?_ (hticks.trans (extends_ticked _)) hinsert
      have hcount := addU64_eq (show report.inserted + 1 < 2 ^ 64 by omega)
      refine Prog.wp_mono (ih { report with inserted := addU64 report.inserted 1 } ?_) ?_ ?_
      · dsimp only
        omega
      · rintro report' s' ⟨hextends, hrows, hinserted⟩
        dsimp only at hrows hinserted
        rw [hcount] at hrows hinserted
        refine ⟨hinsert.trans hextends, ?_, ?_⟩
        · rw [hrows, List.length_cons]
          omega
        · have hlength : (s.working ++ [world.stored (s.tick + 1 + 1)]).length =
              s.working.length + 1 := List.length_append
          replace hinserted : report'.inserted +
            (s.working ++ [world.stored (s.tick + 1 + 1)]).length =
              report.inserted + 1 + s'.working.length := hinserted
          omega
      · rintro stop s' ⟨hstop, hextends⟩
        exact ⟨hstop, hinsert.trans hextends⟩

/-- Rows that are read back are stored as they should be. -/
theorem wp_readBack (rows : List DatabaseRow) :
    Prog.wp (readBack world rows)
      (fun _ s' => Extends s s' ∧ s'.working = s.working ∧
        ∀ row ∈ rows, s.find world row.primaryKey = some row)
      (Failed (Extends s)) s := by
  induction rows generalizing s with
  | nil => exact ⟨Extends.refl s, rfl, by simp⟩
  | cons row rows ih =>
    rw [readBack, Prog.wp_bind]
    refine wp_readTarget ?_ (extends_ticked s)
    by_cases hfound : s.find world row.primaryKey = some row
    · rw [if_pos hfound]
      refine Prog.wp_mono (ih (s := s.ticked)) ?_ ?_
      · rintro _ s' ⟨hextends, hworking, hrows⟩
        exact ⟨(extends_ticked s).trans hextends, hworking,
          List.forall_mem_cons.mpr ⟨hfound, hrows⟩⟩
      · rintro stop s' ⟨hstop, hextends⟩
        exact ⟨hstop, (extends_ticked s).trans hextends⟩
    · rw [if_neg hfound]
      exact ⟨by simp, extends_ticked s⟩

/-! ## Batches -/

/-- The rows of a batch are committed as they are in the source. -/
structure BatchDone (world : GuestRangeWorld) (rows : List DatabaseRow) (s : GuestRangeRuntime)
    (report : GuestRangeRepairReport) (s' : GuestRangeRuntime) : Prop where
  idle : s'.working = s'.committed
  kept : s.committed <+: s'.committed
  pages : s'.pages = s.pages
  commitLost : s'.commitLost = s.commitLost
  counted : report.inserted + report.unchanged = rows.length
  inserted : report.inserted + s.committed.length = s'.committed.length
  stored : ∀ row ∈ rows, s'.find world row.primaryKey = some row

/-- The committed rows are those of before, unless a commit took effect without an answer. -/
structure RolledBack (s s' : GuestRangeRuntime) : Prop where
  kept : s.committed <+: s'.committed
  committed : s'.commitLost = false → s'.committed = s.committed

theorem Extends.rolledBack {s s' : GuestRangeRuntime} (h : Extends s s') : RolledBack s s' :=
  ⟨h.committed ▸ List.prefix_refl _, fun _ => h.committed⟩

theorem wp_insertBatch {rows : List DatabaseRow} (hsize : rows.length < 2 ^ 64) :
    Prog.wp (insertBatch world rows)
      (fun report s' => Extends s s' ∧ report.inserted + report.unchanged = rows.length ∧
        report.inserted + s.working.length = s'.working.length ∧
        ∀ row ∈ rows, s'.find world row.primaryKey = some row)
      (Failed (Extends s)) s := by
  rw [insertBatch, Prog.wp_bind]
  refine Prog.wp_mono (wp_insertRows rows ⟨0, 0, 0, 0⟩ (by simpa using hsize)) ?_ fun _ _ h => h
  rintro report s₁ ⟨hextends, hcounted, hinserted⟩
  rw [Prog.wp_bind]
  refine Prog.wp_mono (wp_readBack rows) ?_ ?_
  · rintro _ s₂ ⟨hextends', hworking, hstored⟩
    dsimp only at hcounted hinserted
    refine ⟨hextends.trans hextends', by omega, by rw [hworking]; omega, ?_⟩
    intro row hrow
    exact find_of_prefix (hstored row hrow) hextends'.working
  · rintro stop s₂ ⟨hstop, hextends'⟩
    exact ⟨hstop, hextends.trans hextends'⟩

/-- A batch is committed as a whole, or it is rolled back. -/
theorem wp_repairBatch {rows : List DatabaseRow} (hsize : rows.length < 2 ^ 64)
    (hidle : s.working = s.committed) :
    Prog.wp (repairBatch world rows) (BatchDone world rows s) (Failed (RolledBack s)) s := by
  have hbegun : Extends s { s.ticked with committed := s.working } :=
    ⟨hidle, List.prefix_refl _, rfl, rfl⟩
  have hbatch : Prog.wp (do
      beginBatch world
      let report ← insertBatch world rows
      commit world
      pure report : Range GuestRangeRepairReport)
      (BatchDone world rows s) (Failed (RolledBack s)) s := by
    rw [Prog.wp_bind]
    refine wp_backendOperation ?_ (extends_ticked s).rolledBack hbegun.rolledBack
    rw [Prog.wp_bind]
    refine Prog.wp_mono (wp_insertBatch hsize) ?_ ?_
    · rintro report s₁ ⟨hextends, hcounted, hinserted, hstored⟩
      have hall := hbegun.trans hextends
      have hbegins : s.committed <+: s₁.working := hidle ▸ hall.working
      have hlength : report.inserted + s.committed.length = s₁.working.length := by
        rw [← hidle]
        exact hinserted
      rw [Prog.wp_bind]
      unfold Prog.wp commit
      cases world.outcome s₁.tick with
      | done => exact ⟨rfl, hbegins, hall.pages, hall.commitLost, hcounted, hlength, hstored⟩
      | refused message => exact ⟨by simp, hall.rolledBack.kept, hall.rolledBack.committed⟩
      | lost message => exact ⟨by simp, hbegins, by simp⟩
    · rintro stop s₁ ⟨hstop, hextends⟩
      exact ⟨hstop, (hbegun.trans hextends).rolledBack⟩
  -- Rolling back changes only what the session sees.
  have hrollback : ∀ s₁, RolledBack s s₁ → Prog.wp (rollback world)
      (fun _ s' => RolledBack s s') (Failed (RolledBack s)) s₁ := fun s₁ h =>
    wp_backendOperation ⟨h.kept, h.committed⟩ ⟨h.kept, h.committed⟩ ⟨h.kept, h.committed⟩
  unfold Prog.wp at hbatch ⊢
  unfold repairBatch
  dsimp only
  split at hbatch
  case h_1 report s₁ hrun =>
    rw [hrun]
    exact hbatch
  case h_2 stop s₁ hrun =>
    rw [hrun]
    obtain ⟨hstop, hfailed⟩ := hbatch
    cases stop with
    | diverged => exact absurd rfl hstop
    | error message =>
      dsimp only
      have hclean := hrollback s₁ hfailed
      unfold Prog.wp at hclean
      cases hrolled : rollback world s₁ with
      | mk result s₂ =>
        rw [hrolled] at hclean
        cases result with
        | ok _ => exact ⟨by simp, hclean⟩
        | error stop =>
          obtain ⟨hstop', hfailed'⟩ := hclean
          cases stop with
          | diverged => exact absurd rfl hstop'
          | error cleanup => exact ⟨by simp, hfailed'⟩

/-! ## Rounds -/

/-- Where the loop stands, and the target there. -/
abbrev RangeState : Type := RangeProgress × GuestRangeRuntime

/-- One round that succeeded. -/
def RangeStep (world : GuestRangeWorld) (config : GuestRangeRepairConfig)
    (before after : RangeState) : Prop :=
  before.1.report.scanned < config.expectedRows ∧
    rangeRound world config before.1 before.2 = (.ok after.1, after.2)

/-- The state before the first round: the rows of the target, and no transaction. -/
def GuestRangeRuntime.start (target : List DatabaseRow) : GuestRangeRuntime :=
  ⟨0, target, target, [], false⟩

/-- What holds between rounds. -/
structure RangeInvariant (world : GuestRangeWorld) (config : GuestRangeRepairConfig)
    (target : List DatabaseRow) (state : RangeState) : Prop where
  idle : state.2.working = state.2.committed
  commitLost : state.2.commitLost = false
  scanned_le : state.1.report.scanned ≤ config.expectedRows
  after : state.1.after.elim config.start (· + 1) = config.start + state.1.report.scanned
  covered : HasGuests state.2.pages.flatten
    (List.range' config.start state.1.report.scanned)
  counted : state.1.report.inserted + state.1.report.unchanged = state.1.report.scanned
  batches : state.1.report.batches = state.2.pages.length
  batches_le : state.1.report.batches ≤ state.1.report.scanned
  kept : target <+: state.2.committed
  inserted : state.1.report.inserted + target.length = state.2.committed.length
  stored : ∀ row ∈ state.2.pages.flatten, state.2.find world row.primaryKey = some row

theorem rangeInvariant_initial (world : GuestRangeWorld) (config : GuestRangeRepairConfig)
    (target : List DatabaseRow) :
    RangeInvariant world config target (.initial, GuestRangeRuntime.start target) where
  idle := rfl
  commitLost := rfl
  scanned_le := Nat.zero_le _
  after := rfl
  covered := .nil
  counted := rfl
  batches := rfl
  batches_le := Nat.zero_le _
  kept := List.prefix_refl _
  inserted := Nat.zero_add _
  stored := by simp [GuestRangeRuntime.start]

variable {config : GuestRangeRepairConfig} {target : List DatabaseRow} {state : RangeState}

/-- A round reads at least one guest and keeps the invariant, or it changes nothing that was
committed. -/
theorem wp_rangeRound (hbounds : validateBounds config = .ok ())
    (h : RangeInvariant world config target state) :
    Prog.wp (rangeRound world config state.1)
      (fun progress s' => RangeInvariant world config target (progress, s') ∧
        state.1.report.scanned < progress.report.scanned ∧ state.2.committed <+: s'.committed)
      (Failed (RolledBack state.2)) state.2 := by
  obtain ⟨hwidth, -, hexpected, hbatchSize⟩ := validateBounds_ok hbounds
  rw [rangeRound, Prog.wp_bind]
  refine wp_readPage (fun rows => ?_) (extends_ticked state.2).rolledBack
  generalize hs₁ : ({ state.2.ticked with
    pages := state.2.pages ++ [rows] } : GuestRangeRuntime) = s₁
  have hcommitted : s₁.committed = state.2.committed := hs₁ ▸ rfl
  have hworking : s₁.working = state.2.working := hs₁ ▸ rfl
  have hpages : s₁.pages = state.2.pages ++ [rows] := hs₁ ▸ rfl
  have hlost : s₁.commitLost = false := hs₁ ▸ h.commitLost
  have hread : RolledBack state.2 s₁ := ⟨hcommitted ▸ List.prefix_refl _, fun _ => hcommitted⟩
  rw [Prog.wp_bind]
  refine wp_decided (fun last hlast => ?_) hread
  obtain ⟨hne, hlength, hguests, hend, hfinish⟩ := validatePage_ok hlast
  rw [h.after] at hguests hend
  have hpositive : 0 < rows.length := List.length_pos_of_ne_nil hne
  have hsize : rows.length < 2 ^ 64 := by
    unfold maxBatchSize at hbatchSize
    omega
  rw [Prog.wp_bind]
  refine Prog.wp_mono (wp_repairBatch hsize (by rw [hworking, hcommitted, h.idle])) ?_ ?_
  · intro batch s₂ hdone
    have hcounted := hdone.counted
    have htotal := h.counted
    have hbatches := h.batches_le
    have hscanned : addU64 state.1.report.scanned (rows.length % 2 ^ 64) =
        state.1.report.scanned + rows.length := by
      rw [Nat.mod_eq_of_lt hsize]
      exact addU64_eq (by omega)
    have hinserted := addU64_eq (show state.1.report.inserted + batch.inserted < 2 ^ 64 by omega)
    have hunchanged :=
      addU64_eq (show state.1.report.unchanged + batch.unchanged < 2 ^ 64 by omega)
    have hrounds := addU64_eq (show state.1.report.batches + 1 < 2 ^ 64 by omega)
    have hkept : state.2.committed <+: s₂.committed := hcommitted ▸ hdone.kept
    have hall : s₂.pages.flatten = state.2.pages.flatten ++ rows := by
      rw [hdone.pages, hpages, List.flatten_append]
      simp
    rw [Prog.wp_pure]
    refine ⟨?_, ?_, hkept⟩
    · refine
        { idle := hdone.idle
          commitLost := hdone.commitLost.trans hlost
          scanned_le := ?_
          after := ?_
          covered := ?_
          counted := ?_
          batches := ?_
          batches_le := ?_
          kept := h.kept.trans hkept
          inserted := ?_
          stored := ?_ } <;>
        dsimp only
      · rw [hscanned]
        omega
      · rw [hscanned]
        change last + 1 = _
        omega
      · rw [hscanned, hall, ← List.range'_append_1]
        exact List.rel_append h.covered hguests
      · rw [hscanned, hinserted, hunchanged]
        omega
      · rw [hrounds, hdone.pages, hpages, List.length_append, h.batches]
        rfl
      · rw [hrounds, hscanned]
        omega
      · have hmore := hdone.inserted
        have hbefore := h.inserted
        rw [hcommitted] at hmore
        rw [hinserted]
        omega
      · intro row hrow
        rw [hall, List.mem_append] at hrow
        rcases hrow with hrow | hrow
        · have hbegins : state.2.working <+: s₂.working := by
            rw [h.idle, hdone.idle]
            exact hkept
          exact find_of_prefix (h.stored row hrow) hbegins
        · exact hdone.stored row hrow
    · dsimp only
      rw [hscanned]
      omega
  · rintro stop s₂ ⟨hstop, hfailed⟩
    refine ⟨hstop, hcommitted ▸ hfailed.kept, fun hnone => ?_⟩
    rw [hfailed.committed hnone, hcommitted]

end Rules

end GuestRange

end BinlogCdc
