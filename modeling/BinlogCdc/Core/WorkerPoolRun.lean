import BinlogCdc.Core.WorkerPool

/-!
# Complete runs of a worker pool

Every run ends, with one report for each job. A job is rejected exactly when it waits, directly
or not, for a cycle, and what a job that waits for its dependencies reports is the same under
every schedule.
-/

namespace BinlogCdc.JobPool

variable {κ σ J R C : Type} [DecidableEq κ]
variable {pool : JobPool κ σ J R C} {jobs : List J} {s : State κ σ J R C}

/-- How a run ends: no worker is active and nothing that is pending is ready. -/
def Complete (pool : JobPool κ σ J R C) (jobs : List J) (final : State κ σ J R C) : Prop :=
  ∃ s, Invariant pool jobs s ∧ s.active = [] ∧
    (∀ entry ∈ s.pending, pool.ready (jobs.map pool.name) s.statuses entry.2 = false) ∧
    final = pool.rejectPending s

theorem length_active_le_fill (pool : JobPool κ σ J R C) (selected : List κ) (free : Nat)
    (s : State κ σ J R C) :
    s.active.length ≤ (pool.fill selected free s).active.length := by
  induction free generalizing s with
  | zero => exact le_rfl
  | succ free ih =>
    unfold fill
    split
    case h_1 => exact le_rfl
    case h_2 entry _ =>
      refine le_trans ?_ (ih (pool.start entry s))
      simp [start]

/-- All workers are free after a fill only when nothing is ready. -/
theorem nextReady_eq_none_of_fill {selected : List κ} {free : Nat} (hfree : 0 < free)
    (hactive : (pool.fill selected free s).active = []) :
    pool.fill selected free s = s ∧ pool.nextReady selected s = none := by
  obtain ⟨free, rfl⟩ := Nat.exists_eq_succ_of_ne_zero hfree.ne'
  unfold fill at hactive ⊢
  split at hactive
  case h_1 hnext => exact ⟨rfl, hnext⟩
  case h_2 entry hnext =>
    have hle := length_active_le_fill pool selected free (pool.start entry s)
    rw [hactive] at hle
    simp [start] at hle

/-- With enough fuel a run completes. -/
theorem Invariant.coordinate {parallelism : Nat} (hparallelism : 0 < parallelism)
    (hnames : (jobs.map pool.name).Nodup) {fuel : Nat} {schedule : Nat → Nat}
    (h : Invariant pool jobs s) (hfuel : pool.remaining s < fuel) :
    ∃ final, pool.coordinate (jobs.map pool.name) parallelism fuel schedule s = some final ∧
      Complete pool jobs final := by
  induction fuel generalizing schedule s with
  | zero => exact absurd hfuel (Nat.not_lt_zero _)
  | succ fuel ih =>
    unfold JobPool.coordinate
    split
    case isTrue hempty =>
      obtain ⟨hpending, hactive⟩ : s.pending = [] ∧ s.active = [] := by simpa using hempty
      refine ⟨s, rfl, s, h, hactive, by simp [hpending], ?_⟩
      obtain ⟨pending, active, statuses, reports, log⟩ := s
      subst hpending
      rfl
    case isFalse =>
      dsimp only
      have hfilled : Invariant pool jobs
        (pool.fill (jobs.map pool.name) (parallelism - s.active.length) s) := h.fill
      have hless : pool.remaining
        (pool.fill (jobs.map pool.name) (parallelism - s.active.length) s) ≤ pool.remaining s :=
          remaining_fill_le
      split
      case isTrue hactive =>
        rw [List.isEmpty_iff] at hactive
        have hidle : s.active.length = 0 := by
          have hle := length_active_le_fill pool (jobs.map pool.name)
            (parallelism - s.active.length) s
          rw [hactive] at hle
          exact Nat.le_zero.mp hle
        have hfree : 0 < parallelism - s.active.length := by omega
        obtain ⟨heq, hnone⟩ := nextReady_eq_none_of_fill hfree hactive
        refine ⟨_, rfl, _, hfilled, hactive, ?_, rfl⟩
        rw [heq]
        intro entry hentry
        simpa using List.find?_eq_none.mp hnone entry hentry
      case isFalse hactive =>
        rw [List.isEmpty_iff] at hactive
        have hturn := hfilled.remaining_act_lt hactive (schedule 0)
        exact ih (hfilled.act hnames) (hturn.trans_le (hless.trans (Nat.lt_succ_iff.mp hfuel)))

omit [DecidableEq κ] in
theorem remaining_initial (pool : JobPool κ σ J R C) (jobs : List J) :
    pool.remaining (initial jobs) = pool.turns jobs := by
  have h : (initial jobs : State κ σ J R C).pending.map Prod.snd = jobs := by
    simp [initial, Function.comp_def]
  have hmap : (initial jobs : State κ σ J R C).pending.map (fun entry => pool.bound entry.2 + 1) =
      jobs.map fun job => pool.bound job + 1 := by
    conv_rhs => rw [← h, List.map_map]
    rfl
  simp only [remaining, hmap, turns]
  simp [initial]

/-- Every run completes. -/
theorem execute_complete (pool : JobPool κ σ J R C) {parallelism : Nat} (hparallelism : 0 < parallelism)
    (hnames : (jobs.map pool.name).Nodup) (schedule : Nat → Nat) :
    ∃ final, pool.execute parallelism schedule jobs = some final ∧ Complete pool jobs final := by
  apply (invariant_initial pool jobs).coordinate hparallelism hnames
  rw [remaining_initial]
  exact Nat.lt_succ_self _

/-! ## What a complete run has reported -/

omit [DecidableEq κ] in
/-- A job that is rejected gets the report of a rejected job. -/
theorem rejectAll_cases (pool : JobPool κ σ J R C) (entries : List (Nat × J))
    (reports : Nat → Option R) (position : Nat) :
    (position ∉ entries.map Prod.fst ∧ pool.rejectAll reports entries position = reports position) ∨
    ∃ entry ∈ entries, entry.1 = position ∧
      pool.rejectAll reports entries position = some (pool.reject entry.2) := by
  induction entries generalizing reports with
  | nil => exact Or.inl ⟨by simp, rfl⟩
  | cons entry entries ih =>
    have hcons : pool.rejectAll reports (entry :: entries) =
      pool.rejectAll (Function.update reports entry.1 (some (pool.reject entry.2))) entries := rfl
    rw [hcons]
    rcases ih (Function.update reports entry.1 (some (pool.reject entry.2))) with
      ⟨hnot, heq⟩ | ⟨other, hother, hposition, heq⟩
    · by_cases hposition : entry.1 = position
      · refine Or.inr ⟨entry, List.mem_cons_self, hposition, ?_⟩
        rw [heq, ← hposition, Function.update_self]
      · refine Or.inl ⟨?_, ?_⟩
        · rw [List.map_cons, List.mem_cons, not_or]
          exact ⟨fun h => hposition h.symm, hnot⟩
        · rw [heq, Function.update_of_ne (fun h => hposition h.symm)]
    · exact Or.inr ⟨other, List.mem_cons_of_mem _ hother, hposition, heq⟩

omit [DecidableEq κ] in
/-- Jobs with unique names are the same when their names are. -/
theorem eq_of_name_eq (hnames : (jobs.map pool.name).Nodup) {job job' : J} (hjob : job ∈ jobs)
    (hjob' : job' ∈ jobs) (h : pool.name job = pool.name job') : job = job' :=
  List.inj_on_of_nodup_map hnames hjob hjob' h

/-- What keeps a job from being ready is a dependency without a status. -/
theorem exists_of_ready_eq_false {selected : List κ} {statuses : κ → Option σ} {job : J}
    (h : pool.ready selected statuses job = false) : pool.immediate job = false ∧
      ∃ dependency ∈ pool.dependencies job, dependency ∈ selected ∧
        statuses dependency = none := by
  rw [ready, Bool.or_eq_false_iff, List.all_eq_false] at h
  obtain ⟨himmediate, dependency, hdep, hnot⟩ := h
  refine ⟨himmediate, dependency, hdep, ?_⟩
  simpa using hnot

/-- Nothing that is pending in the end is grounded: a pending job waits for a pending job. -/
theorem Invariant.not_grounded (h : Invariant pool jobs s) (hnames : (jobs.map pool.name).Nodup)
    (hactive : s.active = [])
    (hpending : ∀ entry ∈ s.pending,
      pool.ready (jobs.map pool.name) s.statuses entry.2 = false) {name : κ}
    (hgrounded : Grounded pool jobs name) : ∀ entry ∈ s.pending, pool.name entry.2 ≠ name := by
  have hstuck : ∀ name ∈ jobs.map pool.name, s.statuses name = none →
      ∃ entry ∈ s.pending, pool.name entry.2 = name := by
    intro name hname hnone
    obtain ⟨job, hjob, rfl⟩ := List.mem_map.mp hname
    obtain ⟨position, hposition⟩ := List.mem_iff_getElem?.mp hjob
    have hunreported : position ∈ s.unreported := by
      rw [h.unreported_iff]
      refine ⟨(List.getElem?_eq_some_iff.mp hposition).1, ?_⟩
      by_contra hne
      obtain ⟨report, hreport⟩ := Option.ne_none_iff_exists'.mp hne
      obtain ⟨job', -, hjob', -, -, hstatus⟩ := h.reported position report hreport
      rw [hposition] at hjob'
      cases hjob'
      rw [hnone] at hstatus
      cases hstatus
    rw [State.unreported, hactive, List.map_nil, List.append_nil, List.mem_map] at hunreported
    obtain ⟨entry, hentry, rfl⟩ := hunreported
    refine ⟨entry, hentry, ?_⟩
    have hjob' := h.pending_job entry hentry
    rw [hposition] at hjob'
    cases hjob'
    rfl
  -- The induction follows the dependencies of a grounded job; a stuck one has a stuck dependency.
  induction hgrounded with
  | @immediate job hjob himmediate =>
    intro entry hentry hname
    have heq := eq_of_name_eq hnames (List.mem_of_getElem? (h.pending_job entry hentry)) hjob hname
    have hnot := (exists_of_ready_eq_false (hpending entry hentry)).1
    rw [heq, himmediate] at hnot
    cases hnot
  | @waits job hjob _ ih =>
    intro entry hentry hname
    have heq := eq_of_name_eq hnames (List.mem_of_getElem? (h.pending_job entry hentry)) hjob hname
    obtain ⟨-, dependency, hdep, hselected, hnone⟩ :=
      exists_of_ready_eq_false (hpending entry hentry)
    obtain ⟨other, hother, hother'⟩ := hstuck dependency hselected hnone
    rw [heq] at hdep
    exact ih dependency hdep hselected other hother hother'

/-- A grounded job has the report of a worker. -/
def Worked (pool : JobPool κ σ J R C) (jobs : List J) (final : State κ σ J R C) (position : Nat)
    (job : J) : Prop :=
  ∃ known, final.reports position = some (pool.run job known) ∧
    Informed pool jobs final.statuses job known ∧
    final.statuses (pool.name job) = some (pool.status (pool.run job known))

/-- Every job has a report: that of a worker when it is grounded, that of a rejected job
otherwise. -/
theorem Complete.report {final : State κ σ J R C} (h : Complete pool jobs final)
    (hnames : (jobs.map pool.name).Nodup) {position : Nat} {job : J}
    (hjob : jobs[position]? = some job) :
    (Grounded pool jobs (pool.name job) ∧ Worked pool jobs final position job) ∨
      (¬ Grounded pool jobs (pool.name job) ∧ pool.immediate job = false ∧
        final.reports position = some (pool.reject job)) := by
  obtain ⟨s, hinv, hactive, hpending, rfl⟩ := h
  rcases rejectAll_cases pool s.pending s.reports position with
    ⟨hnot, heq⟩ | ⟨entry, hentry, rfl, heq⟩
  · left
    have hreported : s.reports position ≠ none := by
      intro hnone
      have hlt := (List.getElem?_eq_some_iff.mp hjob).1
      have hmem := (hinv.unreported_iff position).mpr ⟨hlt, hnone⟩
      rw [State.unreported, hactive, List.map_nil, List.append_nil] at hmem
      exact hnot hmem
    obtain ⟨report, hreport⟩ := Option.ne_none_iff_exists'.mp hreported
    obtain ⟨job', known, hjob', rfl, hinformed, hstatus⟩ := hinv.reported position report hreport
    rw [hjob] at hjob'
    cases hjob'
    refine ⟨hinv.grounded _ _ hstatus, known, ?_, hinformed, hstatus⟩
    exact heq.trans hreport
  · right
    have hentry' := hinv.pending_job entry hentry
    rw [hjob] at hentry'
    cases hentry'
    refine ⟨?_, (exists_of_ready_eq_false (hpending entry hentry)).1, heq⟩
    exact fun hgrounded => hinv.not_grounded hnames hactive hpending hgrounded entry hentry rfl

section Final

variable {final final' : State κ σ J R C}

omit [DecidableEq κ] in
/-- A run of filled slots reads off in order. -/
theorem filterMap_range_eq {reports : Nat → Option R} {list : List R}
    (h : ∀ position, position < list.length → reports position = list[position]?) :
    (List.range list.length).filterMap reports = list := by
  induction list generalizing reports with
  | nil => rfl
  | cons report list ih =>
    rw [List.length_cons, List.range_succ_eq_map, List.filterMap_cons, h 0 (by simp)]
    simp only [List.getElem?_cons_zero, List.filterMap_map]
    congr 1
    apply ih
    intro position hposition
    simpa using h (position + 1) (by simpa using hposition)

/-- Every job has a report under its own name. -/
theorem Complete.exists_report (h : Complete pool jobs final)
    (hnames : (jobs.map pool.name).Nodup) {position : Nat} {job : J}
    (hjob : jobs[position]? = some job) :
    ∃ report, final.reports position = some report ∧ pool.key report = pool.name job := by
  rcases h.report hnames hjob with ⟨-, known, hreport, -⟩ | ⟨-, -, hreport⟩
  · exact ⟨_, hreport, pool.key_run job known⟩
  · exact ⟨_, hreport, pool.key_reject job⟩

/-- There is one report for each job, in input order. -/
theorem Complete.output (h : Complete pool jobs final) (hnames : (jobs.map pool.name).Nodup) :
    (final.output jobs.length).map pool.key = jobs.map pool.name ∧
      ∀ position, position < jobs.length →
        (final.output jobs.length)[position]? = final.reports position := by
  have hsome : ∀ position (hposition : position < jobs.length),
      (final.reports position).isSome = true := by
    intro position hposition
    obtain ⟨report, hreport, -⟩ := h.exists_report hnames (List.getElem?_eq_getElem hposition)
    rw [hreport]
    rfl
  let list := List.ofFn fun index : Fin jobs.length =>
    (final.reports index).get (hsome index index.isLt)
  have hlength : list.length = jobs.length := List.length_ofFn
  have hlist : ∀ position, position < list.length → final.reports position = list[position]? := by
    intro position hposition
    rw [List.getElem?_eq_getElem hposition, List.getElem_ofFn]
    simp
  have hout : final.output jobs.length = list := by
    rw [State.output, ← hlength]
    exact filterMap_range_eq hlist
  rw [hout]
  refine ⟨?_, fun position hposition => (hlist position (hlength ▸ hposition)).symm⟩
  apply List.ext_getElem (by simp [hlength])
  intro position hposition _
  rw [List.length_map] at hposition
  have hjob : jobs[position]? = some jobs[position] := List.getElem?_eq_getElem (hlength ▸ hposition)
  obtain ⟨report, hreport, hkey⟩ := h.exists_report hnames hjob
  have hget := hlist position hposition
  rw [hreport, List.getElem?_eq_getElem hposition] at hget
  rw [List.getElem_map, List.getElem_map, ← Option.some.inj hget, hkey]

theorem Complete.calls (h : Complete pool jobs final) : final.CallsInformed pool jobs := by
  obtain ⟨s, hinv, -, -, rfl⟩ := h
  exact hinv.calls

/-- A status is that of the report. -/
theorem Complete.report_of_statuses (h : Complete pool jobs final)
    (hnames : (jobs.map pool.name).Nodup) {position : Nat} {job : J} {status : σ}
    (hjob : jobs[position]? = some job) (hstatus : final.statuses (pool.name job) = some status) :
    ∃ report, final.reports position = some report ∧ pool.status report = status := by
  rcases h.report hnames hjob with ⟨-, known, hreport, -, hstatus'⟩ | ⟨hnot, -⟩
  · rw [hstatus] at hstatus'
    exact ⟨_, hreport, (Option.some.inj hstatus').symm⟩
  · obtain ⟨s, hinv, -, -, rfl⟩ := h
    exact absurd (hinv.grounded _ _ hstatus) hnot

/-- Only jobs have a status. -/
theorem Complete.selected_of_statuses (h : Complete pool jobs final) {name : κ} {status : σ}
    (hstatus : final.statuses name = some status) : name ∈ jobs.map pool.name := by
  obtain ⟨s, hinv, -, -, rfl⟩ := h
  obtain ⟨-, position, job, -, hjob, rfl, -⟩ := hinv.statuses_reported name status hstatus
  exact List.mem_map_of_mem (List.mem_of_getElem? hjob)

/-- A job waits for another. -/
def Waits (pool : JobPool κ σ J R C) (jobs : List J) (name dependency : κ) : Prop :=
  dependency ∈ jobs.map pool.name ∧
    ∃ job ∈ jobs, pool.name job = name ∧ pool.immediate job = false ∧
      dependency ∈ pool.dependencies job

omit [DecidableEq κ] in
/-- A grounded job waits for nothing endlessly. -/
theorem Grounded.acc (hnames : (jobs.map pool.name).Nodup) {name : κ}
    (h : Grounded pool jobs name) : Acc (fun dependency name => Waits pool jobs name dependency)
      name := by
  induction h with
  | @immediate job hjob himmediate =>
    refine Acc.intro _ fun dependency ⟨_, job', hjob', hname, hnot, _⟩ => ?_
    rw [eq_of_name_eq hnames hjob' hjob hname, himmediate] at hnot
    cases hnot
  | @waits job hjob _ ih =>
    refine Acc.intro _ fun dependency ⟨hselected, job', hjob', hname, _, hdep⟩ => ?_
    rw [eq_of_name_eq hnames hjob' hjob hname] at hdep
    exact ih dependency hdep hselected

omit [DecidableEq κ] in
/-- A job on a cycle, or behind one, is not grounded. -/
theorem not_grounded_of_cycle (hnames : (jobs.map pool.name).Nodup) {name cycle : κ}
    (hbehind : Relation.ReflTransGen (Waits pool jobs) name cycle)
    (hcycle : Relation.TransGen (Waits pool jobs) cycle cycle) :
    ¬ Grounded pool jobs name := by
  intro hgrounded
  have hacc := (hgrounded.acc hnames).transGen
  have hcycle' : Relation.TransGen (fun dependency name => Waits pool jobs name dependency)
      cycle cycle := Relation.transGen_swap.mpr hcycle
  have hacc' : Acc (Relation.TransGen fun dependency name => Waits pool jobs name dependency)
      cycle := by
    rcases Relation.reflTransGen_iff_eq_or_transGen.mp hbehind with rfl | hbehind
    · exact hacc
    · exact hacc.inv (Relation.transGen_swap.mpr hbehind)
  induction hacc' with
  | intro cycle _ ih => exact ih cycle hcycle' hbehind hcycle hcycle'

/-- What a worker reports depends on its dependencies only through those that do not pass, and an
immediate job does not pass. -/
structure Passing (pool : JobPool κ σ J R C) (pass : σ → Bool) : Prop where
  run_eq : ∀ job known known', (∀ dependency ∈ pool.dependencies job,
    (known dependency).all pass = (known' dependency).all pass) →
      pool.run job known = pool.run job known'
  immediate : ∀ job known, pool.immediate job = true →
    pass (pool.status (pool.run job known)) = false

/-- What a worker was told of a dependency is what the dependency reported. -/
theorem Complete.known_eq (h : Complete pool jobs final) {job : J} {known : κ → Option σ}
    (hinformed : Informed pool jobs final.statuses job known) (himmediate : pool.immediate job = false)
    {dependency : κ} (hdep : dependency ∈ pool.dependencies job) :
    known dependency = final.statuses dependency := by
  cases hknown : known dependency with
  | some status => exact (hinformed.told dependency status hknown).2.symm
  | none =>
    by_contra hne
    obtain ⟨status, hstatus⟩ := Option.ne_none_iff_exists'.mp (Ne.symm hne)
    have hsome := hinformed.complete himmediate dependency hdep (h.selected_of_statuses hstatus)
    rw [hknown] at hsome
    cases hsome

omit [DecidableEq κ] in
theorem Grounded.selected {name : κ} (h : Grounded pool jobs name) : name ∈ jobs.map pool.name := by
  cases h with
  | immediate hjob => exact List.mem_map_of_mem hjob
  | waits hjob => exact List.mem_map_of_mem hjob

/-- A job that is not grounded gets no status. -/
theorem Complete.statuses_eq_none (h : Complete pool jobs final) {name : κ}
    (hnot : ¬ Grounded pool jobs name) : final.statuses name = none := by
  obtain ⟨s, hinv, -, -, rfl⟩ := h
  by_contra hne
  obtain ⟨status, hstatus⟩ := Option.ne_none_iff_exists'.mp hne
  exact hnot (hinv.grounded name status hstatus)

/-- A grounded job has the report of a worker in every run. -/
theorem Complete.worked (h : Complete pool jobs final) (hnames : (jobs.map pool.name).Nodup)
    {position : Nat} {job : J} (hjob : jobs[position]? = some job)
    (hgrounded : Grounded pool jobs (pool.name job)) : Worked pool jobs final position job :=
  ((h.report hnames hjob).resolve_right fun hnot => hnot.1 hgrounded).2

/-- Workers that were told the same of what passes report the same. -/
theorem Passing.run_eq_of_informed {pass : σ → Bool} (hpass : pool.Passing pass)
    (h : Complete pool jobs final) (h' : Complete pool jobs final') {job : J}
    {known known' : κ → Option σ} (himmediate : pool.immediate job = false)
    (hinformed : Informed pool jobs final.statuses job known)
    (hinformed' : Informed pool jobs final'.statuses job known')
    (hsame : ∀ dependency ∈ pool.dependencies job,
      (final.statuses dependency).all pass = (final'.statuses dependency).all pass) :
    pool.run job known = pool.run job known' := by
  apply hpass.run_eq
  intro dependency hdep
  rw [h.known_eq hinformed himmediate hdep, h'.known_eq hinformed' himmediate hdep]
  exact hsame dependency hdep

/-- Whether a grounded job passes does not depend on the schedule. -/
theorem Complete.pass_eq_of_grounded {pass : σ → Bool} (hpass : pool.Passing pass)
    (h : Complete pool jobs final) (h' : Complete pool jobs final')
    (hnames : (jobs.map pool.name).Nodup) {name : κ} (hgrounded : Grounded pool jobs name) :
    (final.statuses name).all pass = (final'.statuses name).all pass := by
  have hfails : ∀ job ∈ jobs, pool.immediate job = true → Grounded pool jobs (pool.name job) →
      (final.statuses (pool.name job)).all pass = (final'.statuses (pool.name job)).all pass := by
    intro job hjob himmediate hgrounded
    obtain ⟨position, hposition⟩ := List.mem_iff_getElem?.mp hjob
    obtain ⟨known, -, -, hstatus⟩ := h.worked hnames hposition hgrounded
    obtain ⟨known', -, -, hstatus'⟩ := h'.worked hnames hposition hgrounded
    rw [hstatus, hstatus', Option.all_some, Option.all_some, hpass.immediate job known himmediate,
      hpass.immediate job known' himmediate]
  -- Along the dependencies: the workers of both runs were told the same of what passes.
  induction hgrounded with
  | immediate hjob himmediate => exact hfails _ hjob himmediate (.immediate hjob himmediate)
  | @waits job hjob hdependencies ih =>
    have hgrounded : Grounded pool jobs (pool.name job) := .waits hjob hdependencies
    cases himmediate : pool.immediate job with
    | true => exact hfails job hjob himmediate hgrounded
    | false =>
      obtain ⟨position, hposition⟩ := List.mem_iff_getElem?.mp hjob
      obtain ⟨known, -, hinformed, hstatus⟩ := h.worked hnames hposition hgrounded
      obtain ⟨known', -, hinformed', hstatus'⟩ := h'.worked hnames hposition hgrounded
      have heq : pool.run job known = pool.run job known' := by
        apply hpass.run_eq_of_informed h h' himmediate hinformed hinformed'
        intro dependency hdep
        by_cases hselected : dependency ∈ jobs.map pool.name
        · exact ih dependency hdep hselected
        · have hnot : ¬ Grounded pool jobs dependency := fun hyes => hselected hyes.selected
          rw [h.statuses_eq_none hnot, h'.statuses_eq_none hnot]
      rw [hstatus, hstatus', heq]

theorem Complete.pass_eq {pass : σ → Bool} (hpass : pool.Passing pass)
    (h : Complete pool jobs final) (h' : Complete pool jobs final')
    (hnames : (jobs.map pool.name).Nodup) (name : κ) :
    (final.statuses name).all pass = (final'.statuses name).all pass := by
  by_cases hgrounded : Grounded pool jobs name
  · exact h.pass_eq_of_grounded hpass h' hnames hgrounded
  · rw [h.statuses_eq_none hgrounded, h'.statuses_eq_none hgrounded]

/-- The report of a job that is not immediate does not depend on the schedule. -/
theorem Complete.report_eq {pass : σ → Bool} (hpass : pool.Passing pass)
    (h : Complete pool jobs final) (h' : Complete pool jobs final')
    (hnames : (jobs.map pool.name).Nodup) {position : Nat} {job : J}
    (hjob : jobs[position]? = some job) (himmediate : pool.immediate job = false) :
    final.reports position = final'.reports position := by
  rcases h.report hnames hjob with ⟨hgrounded, known, hreport, hinformed, -⟩ | ⟨hnot, -, hreport⟩
  · obtain ⟨known', hreport', hinformed', -⟩ := h'.worked hnames hjob hgrounded
    rw [hreport, hreport']
    congr 1
    exact hpass.run_eq_of_informed h h' himmediate hinformed hinformed'
      fun dependency _ => h.pass_eq hpass h' hnames dependency
  · obtain ⟨-, -, hreport'⟩ := (h'.report hnames hjob).resolve_left fun hyes => hnot hyes.1
    rw [hreport, hreport']

end Final

end BinlogCdc.JobPool
