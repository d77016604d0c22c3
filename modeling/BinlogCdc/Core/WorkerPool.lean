import Mathlib

/-!
# A worker pool over dependent jobs

A coordinator starts jobs on a bounded number of workers. A job waits until all its selected
dependencies have a status, unless it is immediate. A worker sees the statuses that its
dependencies had when it was started, makes its calls one by one and reports. Which worker acts
next is up to the schedule. Jobs that can never become ready are rejected at the end.
-/

namespace BinlogCdc

/-- Jobs with keys and dependencies, and what a worker makes of one. -/
structure JobPool (κ σ J R C : Type) where
  name : J → κ
  dependencies : J → List κ
  /-- The job does not wait for its dependencies. -/
  immediate : J → Bool
  /-- The report of a worker, from the statuses that it was started with. -/
  run : J → (κ → Option σ) → R
  /-- The report of a job that never became ready. -/
  reject : J → R
  key : R → κ
  status : R → σ
  /-- The calls that a worker makes before it reports. -/
  calls : R → List C
  /-- How many calls a job can make at most. -/
  bound : J → Nat
  key_run : ∀ job known, key (run job known) = name job
  key_reject : ∀ job, key (reject job) = name job
  calls_le : ∀ job known, (calls (run job known)).length ≤ bound job

namespace JobPool

/-- A worker with its job, what it was told of the dependencies, and the calls it has made. -/
structure Worker (κ σ J : Type) where
  position : Nat
  job : J
  known : κ → Option σ
  made : Nat

inductive Event (κ σ C : Type) where
  | started (position : Nat)
  | called (position : Nat) (call : C)
  | reported (key : κ) (status : σ)
deriving DecidableEq

/-- The coordinator between two of its turns. -/
structure State (κ σ J R C : Type) where
  /-- The jobs that are not started, in input order. -/
  pending : List (Nat × J)
  active : List (Worker κ σ J)
  statuses : κ → Option σ
  reports : Nat → Option R
  /-- All events, the oldest first. -/
  log : List (Event κ σ C)

variable {κ σ J R C : Type} [DecidableEq κ]

/-- Whether a job may be started. -/
def ready (pool : JobPool κ σ J R C) (selected : List κ) (statuses : κ → Option σ) (job : J) :
    Bool :=
  pool.immediate job ||
    (pool.dependencies job).all fun dependency =>
      !decide (dependency ∈ selected) || (statuses dependency).isSome

/-- The first job that may be started. -/
def nextReady (pool : JobPool κ σ J R C) (selected : List κ) (s : State κ σ J R C) :
    Option (Nat × J) :=
  s.pending.find? fun entry => pool.ready selected s.statuses entry.2

/-- The statuses of the dependencies of a job. -/
def snapshot (pool : JobPool κ σ J R C) (statuses : κ → Option σ) (job : J) : κ → Option σ :=
  fun name => if name ∈ pool.dependencies job then statuses name else none

/-- Start a worker on a job. -/
def start (pool : JobPool κ σ J R C) (entry : Nat × J) (s : State κ σ J R C) :
    State κ σ J R C :=
  { s with
    pending := s.pending.filter fun other => decide (other.1 ≠ entry.1)
    active := s.active ++ [⟨entry.1, entry.2, pool.snapshot s.statuses entry.2, 0⟩]
    log := s.log ++ [.started entry.1] }

/-- Start jobs on the free workers, as long as one is ready. -/
def fill (pool : JobPool κ σ J R C) (selected : List κ) :
    Nat → State κ σ J R C → State κ σ J R C
  | 0, s => s
  | free + 1, s =>
    match pool.nextReady selected s with
    | none => s
    | some entry => fill pool selected free (pool.start entry s)

/-- A worker makes its next call. -/
def makeCall (index : Nat) (worker : Worker κ σ J) (call : C) (s : State κ σ J R C) :
    State κ σ J R C :=
  { s with
    active := s.active.set index { worker with made := worker.made + 1 }
    log := s.log ++ [.called worker.position call] }

/-- The coordinator receives the report of a worker. -/
def receive (pool : JobPool κ σ J R C) (index : Nat) (worker : Worker κ σ J)
    (s : State κ σ J R C) : State κ σ J R C :=
  let report := pool.run worker.job worker.known
  { s with
    active := s.active.eraseIdx index
    statuses := Function.update s.statuses (pool.key report) (some (pool.status report))
    reports := Function.update s.reports worker.position (some report)
    log := s.log ++ [.reported (pool.key report) (pool.status report)] }

/-- The chosen worker makes its next call, or reports when it has made all its calls. -/
def act (pool : JobPool κ σ J R C) (choice : Nat) (s : State κ σ J R C) : State κ σ J R C :=
  match s.active[choice % s.active.length]? with
  | none => s
  | some worker =>
    match (pool.calls (pool.run worker.job worker.known))[worker.made]? with
    | some call => makeCall (choice % s.active.length) worker call s
    | none => pool.receive (choice % s.active.length) worker s

/-- The reports, with those of rejected jobs. -/
def rejectAll (pool : JobPool κ σ J R C) (reports : Nat → Option R) (entries : List (Nat × J)) :
    Nat → Option R :=
  entries.foldl
    (fun reports entry => Function.update reports entry.1 (some (pool.reject entry.2))) reports

/-- Reject all jobs that are still pending. -/
def rejectPending (pool : JobPool κ σ J R C) (s : State κ σ J R C) : State κ σ J R C :=
  { s with pending := [], reports := pool.rejectAll s.reports s.pending }

/-- The turns of the coordinator; nothing when the fuel runs out. -/
def coordinate (pool : JobPool κ σ J R C) (selected : List κ) (parallelism : Nat) :
    Nat → (Nat → Nat) → State κ σ J R C → Option (State κ σ J R C)
  | 0, _, _ => none
  | fuel + 1, schedule, s =>
    if s.pending.isEmpty && s.active.isEmpty then some s
    else
      let filled := pool.fill selected (parallelism - s.active.length) s
      if filled.active.isEmpty then some (pool.rejectPending filled)
      else
        coordinate pool selected parallelism fuel (fun turn => schedule (turn + 1))
          (pool.act (schedule 0) filled)

/-- Before the first turn. -/
def initial (jobs : List J) : State κ σ J R C where
  pending := jobs.zipIdx.map fun entry => (entry.2, entry.1)
  active := []
  statuses := fun _ => none
  reports := fun _ => none
  log := []

/-- The turns that a list of jobs can take. -/
def turns (pool : JobPool κ σ J R C) (jobs : List J) : Nat :=
  (jobs.map fun job => pool.bound job + 1).sum

/-- Run all jobs. -/
def execute (pool : JobPool κ σ J R C) (parallelism : Nat) (schedule : Nat → Nat)
    (jobs : List J) : Option (State κ σ J R C) :=
  pool.coordinate (jobs.map pool.name) parallelism (pool.turns jobs + 1) schedule (initial jobs)

/-- The reports in input order. -/
def State.output (count : Nat) (s : State κ σ J R C) : List R :=
  (List.range count).filterMap s.reports

/-! ## Invariant -/

/-- A job that is started in the end, with all that it waits for. -/
inductive Grounded (pool : JobPool κ σ J R C) (jobs : List J) : κ → Prop where
  | immediate {job : J} (hjob : job ∈ jobs) (himmediate : pool.immediate job = true) :
      Grounded pool jobs (pool.name job)
  | waits {job : J} (hjob : job ∈ jobs)
      (hdependencies : ∀ dependency ∈ pool.dependencies job, dependency ∈ jobs.map pool.name →
        Grounded pool jobs dependency) : Grounded pool jobs (pool.name job)

/-- What a worker on a job has been told: statuses of its dependencies, and all that the job
waits for. -/
structure Informed (pool : JobPool κ σ J R C) (jobs : List J) (statuses : κ → Option σ) (job : J)
    (known : κ → Option σ) : Prop where
  told : ∀ name status, known name = some status →
    name ∈ pool.dependencies job ∧ statuses name = some status
  complete : pool.immediate job = false → ∀ dependency ∈ pool.dependencies job,
    dependency ∈ jobs.map pool.name → (known dependency).isSome = true

/-- The positions that are pending or with a worker. -/
def State.unreported (s : State κ σ J R C) : List Nat :=
  s.pending.map Prod.fst ++ s.active.map Worker.position

/-- A call is made after the reports that its worker was told of. -/
def State.CallsInformed (pool : JobPool κ σ J R C) (jobs : List J) (s : State κ σ J R C) : Prop :=
  ∀ before after position call, s.log = before ++ .called position call :: after →
    ∃ job known, jobs[position]? = some job ∧
      call ∈ pool.calls (pool.run job known) ∧
      Informed pool jobs s.statuses job known ∧
      ∀ name status, known name = some status → .reported name status ∈ before

/-- What holds between two turns. -/
structure Invariant (pool : JobPool κ σ J R C) (jobs : List J) (s : State κ σ J R C) : Prop where
  pending_job : ∀ entry ∈ s.pending, jobs[entry.1]? = some entry.2
  active_job : ∀ worker ∈ s.active, jobs[worker.position]? = some worker.job
  active_informed : ∀ worker ∈ s.active, Informed pool jobs s.statuses worker.job worker.known
  active_made : ∀ worker ∈ s.active,
    worker.made ≤ (pool.calls (pool.run worker.job worker.known)).length
  /-- A job is at one place at a time. -/
  nodup : s.unreported.Nodup
  /-- A job without a report is pending or with a worker. -/
  unreported_iff : ∀ position, position ∈ s.unreported ↔
    position < jobs.length ∧ s.reports position = none
  /-- A report is that of a worker, and its status is known. -/
  reported : ∀ position report, s.reports position = some report →
    ∃ job known, jobs[position]? = some job ∧ report = pool.run job known ∧
      Informed pool jobs s.statuses job known ∧
      s.statuses (pool.name job) = some (pool.status report)
  /-- A known status is that of a report. -/
  statuses_reported : ∀ name status, s.statuses name = some status →
    .reported name status ∈ s.log ∧
    ∃ position job report, jobs[position]? = some job ∧ pool.name job = name ∧
      s.reports position = some report ∧ pool.status report = status
  grounded : ∀ name status, s.statuses name = some status → Grounded pool jobs name
  calls : s.CallsInformed pool jobs

variable {pool : JobPool κ σ J R C} {jobs : List J} {s : State κ σ J R C}

omit [DecidableEq κ] in
theorem Informed.mono {statuses statuses' : κ → Option σ} {job : J} {known : κ → Option σ}
    (h : Informed pool jobs statuses job known)
    (hgrow : ∀ name status, statuses name = some status → statuses' name = some status) :
    Informed pool jobs statuses' job known where
  told name status hknown := by
    obtain ⟨hmem, hstatus⟩ := h.told name status hknown
    exact ⟨hmem, hgrow name status hstatus⟩
  complete := h.complete

/-- A job that is ready can be started with what is known. -/
theorem informed_snapshot {statuses : κ → Option σ} {job : J}
    (hready : pool.ready (jobs.map pool.name) statuses job = true) :
    Informed pool jobs statuses job (pool.snapshot statuses job) where
  told name status hknown := by
    unfold snapshot at hknown
    split at hknown
    case isTrue hmem => exact ⟨hmem, hknown⟩
    case isFalse => cases hknown
  complete himmediate dependency hdep hselected := by
    simp only [ready, himmediate, Bool.false_or, List.all_eq_true] at hready
    have h := hready dependency hdep
    simp only [hselected, decide_true, Bool.not_true, Bool.false_or] at h
    simpa [snapshot, hdep] using h

omit [DecidableEq κ] in
theorem unreported_initial (jobs : List J) :
    (initial jobs : State κ σ J R C).unreported = List.range jobs.length := by
  simp [State.unreported, initial, Function.comp_def, List.range_eq_range']

omit [DecidableEq κ] in
theorem invariant_initial (pool : JobPool κ σ J R C) (jobs : List J) :
    Invariant pool jobs (initial jobs) where
  pending_job := by
    intro entry hentry
    simp only [initial, List.mem_map] at hentry
    obtain ⟨pair, hpair, rfl⟩ := hentry
    exact List.mem_zipIdx_iff_getElem?.mp hpair
  active_job := by simp [initial]
  active_informed := by simp [initial]
  active_made := by simp [initial]
  nodup := by
    rw [unreported_initial]
    exact List.nodup_range
  unreported_iff := by
    intro position
    rw [unreported_initial, List.mem_range]
    simp [initial]
  reported := by simp [initial]
  statuses_reported := by simp [initial]
  grounded := by simp [initial]
  calls := by
    intro before after position call h
    simp [initial] at h

/-- The last element of a list is at the split, or behind it. -/
theorem append_singleton_split {α : Type} {list before after : List α} {last x : α}
    (h : list ++ [last] = before ++ x :: after) :
    (before = list ∧ x = last) ∨ ∃ rest, list = before ++ x :: rest := by
  rcases List.eq_nil_or_concat after with rfl | ⟨rest, y, rfl⟩
  · obtain ⟨rfl, hx⟩ := List.append_inj' h rfl
    exact Or.inl ⟨rfl, by simpa using hx.symm⟩
  · refine Or.inr ⟨rest, ?_⟩
    have h' : list ++ [last] = (before ++ x :: rest) ++ [y] := by simpa using h
    exact (List.append_inj' h' rfl).1

omit [DecidableEq κ] in
/-- An event that is no call leaves the calls as they were. -/
theorem State.CallsInformed.append {s' : State κ σ J R C} {event : Event κ σ C}
    (h : s.CallsInformed pool jobs) (hlog : s'.log = s.log ++ [event])
    (hgrow : ∀ name status, s.statuses name = some status → s'.statuses name = some status)
    (hevent : ∀ position call, event ≠ .called position call) : s'.CallsInformed pool jobs := by
  intro before after position call hsplit
  rw [hlog] at hsplit
  rcases append_singleton_split hsplit with ⟨-, hx⟩ | ⟨rest, hrest⟩
  · exact absurd hx.symm (hevent position call)
  · obtain ⟨job, known, hjob, hcall, hinformed, hbefore⟩ := h before rest position call hrest
    exact ⟨job, known, hjob, hcall, hinformed.mono hgrow, hbefore⟩

/-- The entry that is started is pending and ready. -/
theorem nextReady_eq_some {selected : List κ} {entry : Nat × J}
    (h : pool.nextReady selected s = some entry) :
    entry ∈ s.pending ∧ pool.ready selected s.statuses entry.2 = true :=
  ⟨List.mem_of_find?_eq_some h, by simpa using List.find?_some h⟩

/-- Starting a job moves its position from the pending jobs to the workers. -/
theorem unreported_start {entry : Nat × J} (hentry : entry ∈ s.pending)
    (hnodup : s.unreported.Nodup) : (pool.start entry s).unreported.Perm s.unreported := by
  have hpending : (s.pending.map Prod.fst).Nodup := (List.nodup_append.mp hnodup).1
  have herase : (s.pending.filter fun other => decide (other.1 ≠ entry.1)).map Prod.fst =
      (s.pending.map Prod.fst).erase entry.1 := by
    rw [hpending.erase_eq_filter, List.filter_map]
    congr 1
    apply List.filter_congr
    intro other _
    simp [bne, beq_eq_decide]
  have hmem : entry.1 ∈ s.pending.map Prod.fst := List.mem_map_of_mem hentry
  have hpos : (pool.start entry s).unreported =
      (s.pending.map Prod.fst).erase entry.1 ++ (s.active.map Worker.position ++ [entry.1]) := by
    simp only [State.unreported, start, herase, List.map_append, List.map_cons, List.map_nil]
  rw [hpos, State.unreported, ← List.append_assoc]
  calc (s.pending.map Prod.fst).erase entry.1 ++ s.active.map Worker.position ++ [entry.1]
      |>.Perm (entry.1 :: ((s.pending.map Prod.fst).erase entry.1 ++
        s.active.map Worker.position)) := List.perm_append_singleton _ _
    _ |>.Perm (s.pending.map Prod.fst ++ s.active.map Worker.position) := by
        rw [← List.cons_append]
        exact (List.perm_cons_erase hmem).symm.append_right _

theorem Invariant.start {entry : Nat × J} (h : Invariant pool jobs s)
    (hentry : entry ∈ s.pending)
    (hready : pool.ready (jobs.map pool.name) s.statuses entry.2 = true) :
    Invariant pool jobs (pool.start entry s) where
  pending_job other hother := h.pending_job other (List.mem_of_mem_filter hother)
  active_job := by
    intro worker hworker
    simp only [JobPool.start, List.mem_append, List.mem_singleton] at hworker
    rcases hworker with hworker | rfl
    · exact h.active_job worker hworker
    · exact h.pending_job entry hentry
  active_informed := by
    intro worker hworker
    simp only [JobPool.start, List.mem_append, List.mem_singleton] at hworker
    rcases hworker with hworker | rfl
    · exact h.active_informed worker hworker
    · exact informed_snapshot hready
  active_made := by
    intro worker hworker
    simp only [JobPool.start, List.mem_append, List.mem_singleton] at hworker
    rcases hworker with hworker | rfl
    · exact h.active_made worker hworker
    · exact Nat.zero_le _
  nodup := (unreported_start hentry h.nodup).nodup_iff.mpr h.nodup
  unreported_iff position := by
    rw [(unreported_start hentry h.nodup).mem_iff]
    exact h.unreported_iff position
  reported := h.reported
  statuses_reported name status hstatus := by
    obtain ⟨hlog, hreport⟩ := h.statuses_reported name status hstatus
    exact ⟨List.mem_append_left _ hlog, hreport⟩
  grounded := h.grounded
  calls := h.calls.append rfl (fun _ _ hstatus => hstatus) (fun _ _ => nofun)

theorem Invariant.fill {free : Nat} (h : Invariant pool jobs s) :
    Invariant pool jobs (pool.fill (jobs.map pool.name) free s) := by
  induction free generalizing s with
  | zero => exact h
  | succ free ih =>
    unfold JobPool.fill
    split
    case h_1 => exact h
    case h_2 entry hnext =>
      obtain ⟨hentry, hready⟩ := nextReady_eq_some hnext
      exact ih (h.start hentry hready)

omit [DecidableEq κ] in
/-- A worker that is changed in place keeps the positions. -/
theorem unreported_makeCall {index : Nat} {worker : Worker κ σ J} {call : C}
    (hworker : s.active[index]? = some worker) :
    (makeCall index worker call s).unreported = s.unreported := by
  have hposition : (s.active.set index { worker with made := worker.made + 1 }).map
      Worker.position = s.active.map Worker.position := by
    rw [List.map_set]
    apply List.ext_getElem?
    intro other
    by_cases hother : index = other
    · subst hother
      simp [List.getElem?_set, hworker]
      exact (List.getElem?_eq_some_iff.mp hworker).1
    · rw [List.getElem?_set_ne hother]
  simp only [State.unreported, makeCall, hposition]

omit [DecidableEq κ] in
theorem Invariant.makeCall {index : Nat} {worker : Worker κ σ J} {call : C}
    (h : Invariant pool jobs s) (hworker : s.active[index]? = some worker)
    (hcall : (pool.calls (pool.run worker.job worker.known))[worker.made]? = some call) :
    Invariant pool jobs (makeCall index worker call s) := by
  have hmem : worker ∈ s.active := List.mem_of_getElem? hworker
  have hunreported : (JobPool.makeCall index worker call s).unreported = s.unreported :=
    unreported_makeCall hworker
  refine ⟨h.pending_job, ?_, ?_, ?_, ?_, ?_, h.reported, ?_, h.grounded, ?_⟩
  · intro other hother
    rcases List.mem_or_eq_of_mem_set hother with hother | rfl
    · exact h.active_job other hother
    · exact h.active_job worker hmem
  · intro other hother
    rcases List.mem_or_eq_of_mem_set hother with hother | rfl
    · exact h.active_informed other hother
    · exact h.active_informed worker hmem
  · intro other hother
    rcases List.mem_or_eq_of_mem_set hother with hother | rfl
    · exact h.active_made other hother
    · exact (List.getElem?_eq_some_iff.mp hcall).1
  · rw [hunreported]
    exact h.nodup
  · intro position
    rw [hunreported]
    exact h.unreported_iff position
  · intro name status hstatus
    obtain ⟨hlog, hreport⟩ := h.statuses_reported name status hstatus
    exact ⟨List.mem_append_left _ hlog, hreport⟩
  · intro before after position call' hsplit
    rcases append_singleton_split hsplit with ⟨rfl, hx⟩ | ⟨rest, hrest⟩
    · obtain ⟨rfl, rfl⟩ : position = worker.position ∧ call' = call := by simpa using hx
      have hinformed := h.active_informed worker hmem
      refine ⟨worker.job, worker.known, h.active_job worker hmem, List.mem_of_getElem? hcall,
        hinformed, ?_⟩
      intro name status hknown
      exact (h.statuses_reported name status (hinformed.told name status hknown).2).1
    · exact h.calls before rest position call' hrest

/-- The position of a worker that reports leaves the list. -/
theorem unreported_receive {index : Nat} {worker : Worker κ σ J}
    (hworker : s.active[index]? = some worker) :
    s.unreported.Perm (worker.position :: (pool.receive index worker s).unreported) := by
  have herase : (s.active.eraseIdx index).map Worker.position =
      (s.active.map Worker.position).eraseIdx index := (List.eraseIdx_map ..).symm
  obtain ⟨hindex, hget⟩ := List.getElem?_eq_some_iff.mp hworker
  have hperm : (s.active.map Worker.position).Perm
      (worker.position :: (s.active.map Worker.position).eraseIdx index) := by
    have h := List.getElem_cons_eraseIdx_perm (l := s.active.map Worker.position)
      (n := index) (by simpa using hindex)
    rw [List.getElem_map, hget] at h
    exact h.symm
  simp only [State.unreported, receive, herase]
  exact (hperm.append_left _).trans List.perm_middle

omit [DecidableEq κ] in
/-- Names are unique, so a job that has not reported has no status. -/
theorem Invariant.statuses_eq_none (h : Invariant pool jobs s)
    (hnames : (jobs.map pool.name).Nodup) {position : Nat} {job : J}
    (hjob : jobs[position]? = some job) (hposition : position ∈ s.unreported) :
    s.statuses (pool.name job) = none := by
  by_contra hne
  obtain ⟨status, hstatus⟩ := Option.ne_none_iff_exists'.mp hne
  obtain ⟨-, position', job', report, hjob', hname, hreport, -⟩ :=
    h.statuses_reported _ _ hstatus
  have hlt : position < (jobs.map pool.name).length := by
    rw [List.length_map]
    exact (List.getElem?_eq_some_iff.mp hjob).1
  have heq : position = position' := by
    apply (List.getElem?_inj hlt hnames).mp
    simp only [List.getElem?_map, hjob, hjob', Option.map_some, hname]
  have hnone := ((h.unreported_iff position).mp hposition).2
  rw [heq, hreport] at hnone
  cases hnone

omit [DecidableEq κ] in
/-- A job whose worker was told of all it waits for is grounded. -/
theorem Invariant.grounded_of_informed (h : Invariant pool jobs s) {job : J}
    {known : κ → Option σ} (hjob : job ∈ jobs)
    (hinformed : Informed pool jobs s.statuses job known) :
    Grounded pool jobs (pool.name job) := by
  cases himmediate : pool.immediate job with
  | true => exact .immediate hjob himmediate
  | false =>
    refine .waits hjob fun dependency hdep hselected => ?_
    obtain ⟨status, hknown⟩ := Option.isSome_iff_exists.mp
      (hinformed.complete himmediate dependency hdep hselected)
    exact h.grounded dependency status (hinformed.told dependency status hknown).2

theorem Invariant.receive {index : Nat} {worker : Worker κ σ J} (h : Invariant pool jobs s)
    (hnames : (jobs.map pool.name).Nodup) (hworker : s.active[index]? = some worker) :
    Invariant pool jobs (pool.receive index worker s) := by
  have hmem : worker ∈ s.active := List.mem_of_getElem? hworker
  have hjob := h.active_job worker hmem
  have hinformed := h.active_informed worker hmem
  have hperm : s.unreported.Perm (worker.position :: (pool.receive index worker s).unreported) :=
    unreported_receive hworker
  have hnone := h.statuses_eq_none hnames hjob (hperm.mem_iff.mpr List.mem_cons_self)
  have hkey := pool.key_run worker.job worker.known
  have hgrow : ∀ name status, s.statuses name = some status →
      (pool.receive index worker s).statuses name = some status := by
    intro name status hstatus
    have hne : name ≠ pool.name worker.job := by
      rintro rfl
      rw [hnone] at hstatus
      cases hstatus
    simpa [JobPool.receive, hkey, Function.update_of_ne hne] using hstatus
  have hnew : ∀ name status, (pool.receive index worker s).statuses name = some status →
      (name = pool.name worker.job ∧ status = pool.status (pool.run worker.job worker.known)) ∨
        s.statuses name = some status := by
    intro name status hstatus
    by_cases hname : name = pool.name worker.job
    · subst hname
      simp only [JobPool.receive, hkey, Function.update_self, Option.some.injEq] at hstatus
      exact Or.inl ⟨rfl, hstatus.symm⟩
    · simp only [JobPool.receive, hkey, Function.update_of_ne hname] at hstatus
      exact Or.inr hstatus
  have hnodup := (List.nodup_cons.mp (hperm.nodup_iff.mp h.nodup))
  refine ⟨h.pending_job, ?_, ?_, ?_, hnodup.2, ?_, ?_, ?_, ?_, ?_⟩
  · exact fun other hother => h.active_job other (List.mem_of_mem_eraseIdx hother)
  · exact fun other hother =>
      (h.active_informed other (List.mem_of_mem_eraseIdx hother)).mono hgrow
  · exact fun other hother => h.active_made other (List.mem_of_mem_eraseIdx hother)
  · intro position
    have hiff := h.unreported_iff position
    rw [hperm.mem_iff, List.mem_cons] at hiff
    by_cases hposition : position = worker.position
    · subst hposition
      simpa [JobPool.receive] using hnodup.1
    · simpa [JobPool.receive, hposition, Function.update_of_ne hposition] using hiff
  · intro position report hreport
    by_cases hposition : position = worker.position
    · subst hposition
      simp only [JobPool.receive, Function.update_self, Option.some.injEq] at hreport
      refine ⟨worker.job, worker.known, hjob, hreport.symm, hinformed.mono hgrow, ?_⟩
      subst hreport
      simp [JobPool.receive, hkey]
    · simp only [JobPool.receive, Function.update_of_ne hposition] at hreport
      obtain ⟨job, known, hjob', heq, hinformed', hstatus⟩ := h.reported position report hreport
      exact ⟨job, known, hjob', heq, hinformed'.mono hgrow, hgrow _ _ hstatus⟩
  · intro name status hstatus
    rcases hnew name status hstatus with ⟨rfl, rfl⟩ | hstatus
    · refine ⟨List.mem_append_right _ ?_, worker.position, worker.job,
        pool.run worker.job worker.known, hjob, rfl, ?_, rfl⟩
      · simp [hkey]
      · simp [JobPool.receive]
    · obtain ⟨hlog, position, job, report, hjob', hname, hreport, heq⟩ :=
        h.statuses_reported name status hstatus
      refine ⟨List.mem_append_left _ hlog, position, job, report, hjob', hname, ?_, heq⟩
      have hposition : position ≠ worker.position := by
        rintro rfl
        have := ((h.unreported_iff worker.position).mp
          (hperm.mem_iff.mpr List.mem_cons_self)).2
        rw [hreport] at this
        cases this
      simpa [JobPool.receive, Function.update_of_ne hposition] using hreport
  · intro name status hstatus
    rcases hnew name status hstatus with ⟨rfl, -⟩ | hstatus
    · exact h.grounded_of_informed (List.mem_of_getElem? hjob) hinformed
    · exact h.grounded name status hstatus
  · exact h.calls.append rfl hgrow (fun _ _ => nofun)

theorem Invariant.act {choice : Nat} (h : Invariant pool jobs s)
    (hnames : (jobs.map pool.name).Nodup) : Invariant pool jobs (pool.act choice s) := by
  unfold JobPool.act
  split
  case h_1 => exact h
  case h_2 worker hworker =>
    split
    case h_1 call hcall => exact h.makeCall hworker hcall
    case h_2 => exact h.receive hnames hworker

/-! ## Termination -/

/-- The calls and reports that are still to come, at most. -/
def remaining (pool : JobPool κ σ J R C) (s : State κ σ J R C) : Nat :=
  (s.pending.map fun entry => pool.bound entry.2 + 1).sum +
    (s.active.map fun worker => pool.bound worker.job + 1 - worker.made).sum

/-- An element that a filter drops is missing from the sum. -/
theorem sum_filter_add_le {α : Type} (f : α → Nat) {p : α → Bool} {list : List α} {a : α}
    (ha : a ∈ list) (hp : p a = false) :
    ((list.filter p).map f).sum + f a ≤ (list.map f).sum := by
  induction list with
  | nil => cases ha
  | cons b list ih =>
    rcases List.mem_cons.mp ha with rfl | ha
    · have hle : ((list.filter p).map f).sum ≤ (list.map f).sum :=
        (List.filter_sublist.map f).sum_le_sum fun _ _ => Nat.zero_le _
      rw [List.filter_cons_of_neg (by simp [hp]), List.map_cons, List.sum_cons]
      omega
    · have hle := ih ha
      rw [List.map_cons, List.sum_cons]
      cases hb : p b with
      | true =>
        rw [List.filter_cons_of_pos hb, List.map_cons, List.sum_cons]
        omega
      | false =>
        rw [List.filter_cons_of_neg (by simp [hb])]
        omega

theorem remaining_start_le {entry : Nat × J} (hentry : entry ∈ s.pending) :
    pool.remaining (pool.start entry s) ≤ pool.remaining s := by
  have h := sum_filter_add_le (fun entry : Nat × J => pool.bound entry.2 + 1)
    (p := fun other => decide (other.1 ≠ entry.1)) hentry (by simp)
  simp only [remaining, start, List.map_append, List.sum_append, List.map_cons, List.map_nil,
    List.sum_cons, List.sum_nil]
  omega

theorem remaining_fill_le {selected : List κ} {free : Nat} :
    pool.remaining (pool.fill selected free s) ≤ pool.remaining s := by
  induction free generalizing s with
  | zero => exact le_rfl
  | succ free ih =>
    unfold fill
    split
    case h_1 => exact le_rfl
    case h_2 entry hnext => exact ih.trans (remaining_start_le (nextReady_eq_some hnext).1)

omit [DecidableEq κ] in
/-- The work of the workers, with one of them taken out. -/
theorem sum_active_eq {active : List (Worker κ σ J)} {index : Nat} {worker : Worker κ σ J}
    (f : Worker κ σ J → Nat) (hworker : active[index]? = some worker) :
    (active.map f).sum = f worker + ((active.eraseIdx index).map f).sum := by
  obtain ⟨hindex, rfl⟩ := List.getElem?_eq_some_iff.mp hworker
  rw [← (List.getElem_cons_eraseIdx_perm hindex).map f |>.sum_eq, List.map_cons, List.sum_cons]

omit [DecidableEq κ] in
/-- The work of the workers, with one of them replaced. -/
theorem sum_active_set_eq {active : List (Worker κ σ J)} {index : Nat}
    (f : Worker κ σ J → Nat) (hindex : index < active.length) (worker : Worker κ σ J) :
    ((active.set index worker).map f).sum = f worker + ((active.eraseIdx index).map f).sum := by
  rw [(List.set_perm_cons_eraseIdx hindex worker).map f |>.sum_eq, List.map_cons, List.sum_cons]

/-- Every action of a worker brings the end nearer. -/
theorem Invariant.remaining_act_lt (h : Invariant pool jobs s) (hactive : s.active ≠ [])
    (choice : Nat) : pool.remaining (pool.act choice s) < pool.remaining s := by
  have hlt : choice % s.active.length < s.active.length :=
    Nat.mod_lt _ (List.length_pos_of_ne_nil hactive)
  have hworker : s.active[choice % s.active.length]? = some s.active[choice % s.active.length] :=
    List.getElem?_eq_getElem hlt
  generalize s.active[choice % s.active.length] = worker at hworker
  have hmade : worker.made ≤ pool.bound worker.job :=
    (h.active_made worker (List.mem_of_getElem? hworker)).trans
      (pool.calls_le worker.job worker.known)
  have hsum := sum_active_eq (fun worker => pool.bound worker.job + 1 - worker.made) hworker
  unfold JobPool.act
  rw [hworker]
  dsimp only
  split
  case h_1 call hcall =>
    have hset := sum_active_set_eq (fun worker => pool.bound worker.job + 1 - worker.made) hlt
      { worker with made := worker.made + 1 }
    simp only [remaining, JobPool.makeCall]
    rw [hset, hsum]
    dsimp only
    omega
  case h_2 =>
    simp only [remaining, JobPool.receive]
    rw [hsum]
    omega

end JobPool

end BinlogCdc
