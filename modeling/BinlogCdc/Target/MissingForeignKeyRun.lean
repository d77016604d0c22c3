import BinlogCdc.Core.Recording
import BinlogCdc.Target.MissingForeignKey

/-!
# Runs of row changes with repairs

Every execution of a row change adds a segment to the record of the run, and leaves the set of
active repairs as it found it. A level of repairs executes at most two row changes at the next
level, and there are at most eight levels below the first, which bounds the statements. A duplicate
insert inside a repair is answered by the segment that its execution added.
-/

namespace BinlogCdc

/-! ## Records of a run -/

/-- The statements of a record, each with its result. -/
def statementsOf (events : List RepairEvent) :
    List (TargetRowChange × Except TargetExecuteError Unit) :=
  events.filterMap fun
    | .statement change _ _ result => some (change, result)
    | _ => none

/-- The row changes that were executed, each with its behavior. -/
def behaviorsOf (events : List RepairEvent) : List (TargetRowChange × DuplicateInsertBehavior) :=
  events.filterMap fun
    | .statement change behavior _ _ => some (change, behavior)
    | _ => none

theorem statementsOf_append (events more : List RepairEvent) :
    statementsOf (events ++ more) = statementsOf events ++ statementsOf more :=
  List.filterMap_append

theorem behaviorsOf_append (events more : List RepairEvent) :
    behaviorsOf (events ++ more) = behaviorsOf events ++ behaviorsOf more :=
  List.filterMap_append

/-- What holds of each event: never more than eight active repairs, no repair started while it is
active, and every execution leaves the active repairs as it found them. -/
def RepairEvent.Sound : RepairEvent → Prop
  | .statement _ _ active _ => active.card ≤ maxMissingForeignKeyRepairDepth
  | .started key active => key ∉ active ∧ active.card < maxMissingForeignKeyRepairDepth
  | .returned _ _ _ _ before after => after = before
  | _ => True

/-- The record of an execution that succeeded. -/
def Succeeded (change : TargetRowChange) (behavior : DuplicateInsertBehavior)
    (events : List RepairEvent) : Prop :=
  (∃ active result rest, events = .statement change behavior active result :: rest) ∧
    ∃ rest result before after,
      events = rest ++ [.returned change behavior result (.ok ()) before after]

/-- The record ends in a reconciliation of a duplicate insert: the owner of the duplicate key was
changed, the insert was executed again if it has to be, and the rows were verified. -/
def DuplicateReconciled (change : TargetRowChange) (events : List RepairEvent) : Prop :=
  ∃ before reconciliation owner retry,
    events = before ++ .reconciliation change reconciliation :: (owner ++ retry) ++
        [.verified change reconciliation (.ok ())] ∧
      Succeeded reconciliation.ownerChange .reconcile owner ∧
      if reconciliation.retryParentInsert then Succeeded change .reject retry else retry = []

/-- What holds of a record: its events are sound, and a duplicate insert inside a repair is not
swallowed. -/
structure WellRecorded (events : List RepairEvent) : Prop where
  sound : ∀ event ∈ events, event.Sound
  answered : ∀ front change behavior error before after,
    front ++ [.returned change behavior (.error error) (.ok ()) before after] <+: events →
      change.kind = .insert → error.mysqlCode = some 1062 → behavior ≠ .ignore →
        DuplicateReconciled change front

theorem DuplicateReconciled.append_left {change : TargetRowChange} {events : List RepairEvent}
    (h : DuplicateReconciled change events) (earlier : List RepairEvent) :
    DuplicateReconciled change (earlier ++ events) := by
  obtain ⟨before, reconciliation, owner, retry, rfl, howner, hretry⟩ := h
  exact ⟨earlier ++ before, reconciliation, owner, retry, by simp only [List.append_assoc], howner,
    hretry⟩

namespace WellRecorded

variable {events more : List RepairEvent}

theorem nil : WellRecorded [] where
  sound _ hevent := by cases hevent
  answered front _ _ _ _ _ hprefix := by
    have hlength := hprefix.length_le
    simp at hlength

/-- An event other than a return is recorded well if it is sound. -/
theorem singleton {event : RepairEvent} (h : event.Sound)
    (hevent : ∀ change behavior statement result before after,
      event ≠ .returned change behavior statement result before after) : WellRecorded [event] where
  sound := List.forall_mem_singleton.mpr h
  answered front change behavior error before after hprefix := by
    obtain ⟨rest, heq⟩ := hprefix
    have hmem : RepairEvent.returned change behavior (.error error) (.ok ()) before after ∈
        [event] := by
      rw [← heq]
      simp
    exact absurd (List.mem_singleton.mp hmem).symm (hevent _ _ _ _ _ _)

theorem append (h : WellRecorded events) (h' : WellRecorded more) :
    WellRecorded (events ++ more) where
  sound event hevent := (List.mem_append.mp hevent).elim (h.sound event) (h'.sound event)
  answered front change behavior error before after hprefix hkind hcode hbehavior := by
    rcases List.prefix_or_prefix_of_prefix hprefix (List.prefix_append events more) with
      hearly | ⟨late, hlate⟩
    · exact h.answered front _ _ _ _ _ hearly hkind hcode hbehavior
    · rcases List.eq_nil_or_concat late with rfl | ⟨late, last, rfl⟩
      · rw [List.append_nil] at hlate
        exact h.answered front _ _ _ _ _ ⟨[], by rw [List.append_nil, hlate]⟩ hkind hcode hbehavior
      · rw [List.concat_eq_append, ← List.append_assoc] at hlate
        obtain ⟨rfl, hlast⟩ := List.append_inj' hlate rfl
        rw [List.append_assoc, List.prefix_append_right_inj] at hprefix
        exact (h'.answered late _ _ _ _ _ hprefix hkind hcode hbehavior).append_left events

/-- The record of an execution is closed by its return. -/
theorem close {change : TargetRowChange} {behavior : DuplicateInsertBehavior}
    {statement : Except TargetExecuteError Unit} {result : Except RepairStop Unit}
    {active : Finset ActiveRepairKey} (h : WellRecorded events)
    (hanswered : ∀ error, statement = .error error → result = .ok () → change.kind = .insert →
      error.mysqlCode = some 1062 → behavior ≠ .ignore → DuplicateReconciled change events) :
    WellRecorded (events ++ [.returned change behavior statement result active active]) where
  sound event hevent := by
    rcases List.mem_append.mp hevent with hevent | hevent
    · exact h.sound event hevent
    · obtain rfl := List.mem_singleton.mp hevent
      exact rfl
  answered front other behavior' error before after hprefix hkind hcode hbehavior := by
    rcases List.prefix_concat_iff.mp hprefix with heq | hprefix
    · obtain ⟨rfl, hlast⟩ := List.append_inj' heq rfl
      obtain ⟨rfl, rfl, rfl, rfl, -⟩ : other = change ∧ behavior' = behavior ∧
          Except.error error = statement ∧ Except.ok () = result ∧ _ := by
        simpa using hlast
      exact hanswered error rfl rfl hkind hcode hbehavior
    · exact h.answered front _ _ _ _ _ hprefix hkind hcode hbehavior

end WellRecorded

/-! ## Programs that record -/

section Recording

variable {σ α β : Type} {active : Finset ActiveRepairKey}

/-- With these repairs active, the program adds to the record and leaves the active repairs as they
are; its result and what it added are related. -/
def Performs (program : Repairing σ α) (active : Finset ActiveRepairKey)
    (post : Except RepairStop α → List RepairEvent → Prop) : Prop :=
  ∀ run, run.active = active → ∃ events, (program run).2.log = run.log ++ events ∧
    (program run).2.active = active ∧ post (program run).1 events

namespace Performs

variable {program : Repairing σ α} {post : Except RepairStop α → List RepairEvent → Prop}

theorem mono {post' : Except RepairStop α → List RepairEvent → Prop}
    (h : Performs program active post) (himp : ∀ result events, post result events →
      post' result events) : Performs program active post' := by
  intro run hrun
  obtain ⟨events, hlog, hactive, hpost⟩ := h run hrun
  exact ⟨events, hlog, hactive, himp _ _ hpost⟩

theorem of_pure {value : α} (h : post (.ok value) []) :
    Performs (pure value : Repairing σ α) active post := by
  intro run hrun
  exact ⟨[], (List.append_nil _).symm, hrun, h⟩

theorem of_fail {stop : RepairStop} (h : post (.error stop) []) :
    Performs (Prog.fail stop : Repairing σ α) active post := by
  intro run hrun
  exact ⟨[], (List.append_nil _).symm, hrun, h⟩

theorem note_event (event : RepairEvent) {post : Except RepairStop Unit → List RepairEvent → Prop}
    (h : post (.ok ()) [event]) : Performs (note event : Repairing σ Unit) active post := by
  intro run hrun
  exact ⟨[event], rfl, hrun, h⟩

/-- The second program adds to what the first added. -/
theorem bind {next : α → Repairing σ β} {post' : Except RepairStop β → List RepairEvent → Prop}
    (h : Performs program active post)
    (hnext : ∀ value events, post (.ok value) events →
      Performs (next value) active fun result more => post' result (events ++ more))
    (hstop : ∀ stop events, post (.error stop) events → post' (.error stop) events) :
    Performs (program >>= next) active post' := by
  intro run hrun
  obtain ⟨events, hlog, hactive, hpost⟩ := h run hrun
  cases hprogram : program run with
  | mk result after =>
    rw [hprogram] at hlog hactive hpost
    cases result with
    | error stop =>
      rw [Prog.bind_of_error hprogram]
      exact ⟨events, hlog, hactive, hstop stop events hpost⟩
    | ok value =>
      rw [Prog.bind_of_ok hprogram]
      obtain ⟨more, hlog', hactive', hpost'⟩ := hnext value events hpost after hactive
      refine ⟨events ++ more, ?_, hactive', hpost'⟩
      rw [hlog', hlog, List.append_assoc]

theorem reads_active {next : Finset ActiveRepairKey → Repairing σ α}
    (h : Performs (next active) active post) :
    Performs (Prog.reads RepairRun.active >>= next) active post := by
  intro run hrun
  have hbind : (Prog.reads RepairRun.active >>= next) run = next active run := by
    rw [← hrun]
    rfl
  rw [hbind]
  exact h run hrun

theorem ofExcept_bind {checked : Except RepairStop α} {next : α → Repairing σ β}
    {post : Except RepairStop β → List RepairEvent → Prop}
    (hok : ∀ value, checked = .ok value → Performs (next value) active post)
    (herror : ∀ stop, checked = .error stop → post (.error stop) []) :
    Performs (Prog.ofExcept checked >>= next) active post := by
  cases hchecked : checked with
  | ok value =>
    intro run hrun
    exact hok value hchecked run hrun
  | error stop =>
    intro run hrun
    exact ⟨[], (List.append_nil _).symm, hrun, herror stop hchecked⟩

/-- An operation of the executor returns what the operation can return. -/
theorem callExecutor_bind {operation : Prog σ TargetExecuteError α} {next : α → Repairing σ β}
    {post : Except RepairStop β → List RepairEvent → Prop}
    (hok : ∀ value state state', operation state = (.ok value, state') →
      Performs (next value) active post)
    (herror : ∀ error, post (.error (.failed error)) []) :
    Performs (callExecutor operation >>= next) active post := by
  intro run hrun
  cases hoperation : operation run.executor with
  | mk result state =>
    cases result with
    | error error =>
      have hcall : callExecutor operation run =
          (.error (.failed error), { run with executor := state }) := by
        rw [callExecutor, hoperation]
      rw [Prog.bind_of_error hcall]
      exact ⟨[], (List.append_nil _).symm, hrun, herror error⟩
    | ok value =>
      have hcall : callExecutor operation run = (.ok value, { run with executor := state }) := by
        rw [callExecutor, hoperation]
      rw [Prog.bind_of_ok hcall]
      exact hok value _ _ hoperation { run with executor := state } hrun

theorem callStatement_bind {executor : RepairExecutor σ} {change : TargetRowChange}
    {behavior : DuplicateInsertBehavior}
    {next : Except TargetExecuteError Unit → Repairing σ β}
    {post : Except RepairStop β → List RepairEvent → Prop}
    (h : ∀ result, Performs (next result) active fun returned events =>
      post returned (.statement change behavior active result :: events)) :
    Performs (callStatement executor change behavior >>= next) active post := by
  have hcall : Performs (callStatement executor change behavior) active fun result events =>
      ∃ statement, result = .ok statement ∧
        events = [.statement change behavior active statement] := by
    intro run hrun
    exact ⟨_, rfl, hrun, _, rfl, by rw [hrun]⟩
  refine hcall.bind ?_ ?_
  · rintro _ _ ⟨statement, hok, rfl⟩
    obtain rfl := Except.ok.inj hok
    exact h _
  · rintro _ _ ⟨_, herror, -⟩
    cases herror

theorem callVerify {executor : RepairExecutor σ} {change : TargetRowChange}
    {reconciliation : DuplicateParentReconciliation} :
    Performs (callVerify executor change reconciliation) active fun result events =>
      ∃ verified : Except TargetExecuteError Unit, result = verified.mapError .failed ∧
        events = [.verified change reconciliation verified] := by
  intro run hrun
  exact ⟨_, rfl, hrun, _, rfl, rfl⟩

/-- A repair runs with its key among the active ones, and the key is taken out again. -/
theorem withActiveRepair {key : ActiveRepairKey} {repair : Repairing σ Unit}
    {post : Except RepairStop Unit → List RepairEvent → Prop} (hkey : key ∉ active)
    (h : Performs repair (insert key active) fun result events =>
      post result (.started key active :: events)) :
    Performs (withActiveRepair key repair) active post := by
  have hnote : Performs (note (.started key active) : Repairing σ Unit) active fun result events =>
      result = .ok () ∧ events = [.started key active] :=
    note_event _ ⟨rfl, rfl⟩
  refine reads_active (hnote.bind ?_ ?_)
  · rintro _ _ ⟨-, rfl⟩
    intro run hrun
    obtain ⟨events, hlog, hactive, hpost⟩ :=
      h { run with active := insert key run.active } (by rw [hrun])
    refine ⟨events, hlog, ?_, hpost⟩
    change Finset.erase (repair { run with active := insert key run.active }).2.active key = active
    rw [hactive, Finset.erase_insert hkey]
  · rintro _ _ ⟨herror, -⟩
    cases herror

theorem returning {change : TargetRowChange} {behavior : DuplicateInsertBehavior}
    {statement : Except TargetExecuteError Unit} {body : Repairing σ Unit}
    {post : Except RepairStop Unit → List RepairEvent → Prop}
    (h : Performs body active fun result events =>
      post result (events ++ [.returned change behavior statement result active active])) :
    Performs (returning change behavior statement active body) active post := by
  intro run hrun
  obtain ⟨events, hlog, hactive, hpost⟩ := h run hrun
  have hreturning : BinlogCdc.returning change behavior statement active body run =
      ((body run).1, (body run).2.record
        (.returned change behavior statement (body run).1 active (body run).2.active)) := rfl
  rw [hreturning]
  refine ⟨events ++ [.returned change behavior statement (body run).1 active active], ?_, hactive,
    hpost⟩
  rw [RepairRun.record, hlog, hactive, List.append_assoc]

end Performs

end Recording

/-! ## Segments -/

/-- The statements that an execution may take with these repairs active. -/
def statementBudget (active : Finset ActiveRepairKey) : Nat :=
  2 ^ (maxMissingForeignKeyRepairDepth + 1 - active.card) - 1

theorem statementBudget_pos {active : Finset ActiveRepairKey}
    (h : active.card ≤ maxMissingForeignKeyRepairDepth) : 1 ≤ statementBudget active := by
  have hpow : 2 ^ 1 ≤ 2 ^ (maxMissingForeignKeyRepairDepth + 1 - active.card) :=
    Nat.pow_le_pow_right (by decide) (by omega)
  unfold statementBudget
  omega

/-- One more active repair halves the budget. -/
theorem statementBudget_insert {active : Finset ActiveRepairKey} {key : ActiveRepairKey}
    (hkey : key ∉ active) (h : active.card < maxMissingForeignKeyRepairDepth) :
    statementBudget (insert key active) + statementBudget (insert key active) + 1 =
      statementBudget active := by
  have hlevel : maxMissingForeignKeyRepairDepth + 1 - active.card =
      maxMissingForeignKeyRepairDepth + 1 - (active.card + 1) + 1 := by
    omega
  have hpos : 1 ≤ 2 ^ (maxMissingForeignKeyRepairDepth + 1 - (active.card + 1)) :=
    Nat.one_le_two_pow
  unfold statementBudget
  rw [Finset.card_insert_of_notMem hkey, hlevel, Nat.pow_succ]
  omega

/-- A segment that belongs to the execution of a row change. -/
structure Segment (change : TargetRowChange) (behavior : DuplicateInsertBehavior) (limit : Nat)
    (result : Except RepairStop Unit) (events : List RepairEvent) : Prop where
  finished : result ≠ .error .outOfFuel
  bounded : (statementsOf events).length ≤ limit
  recorded : WellRecorded events
  /-- Only the row change itself can be executed with duplicates ignored. -/
  behaviors : ∀ entry ∈ behaviorsOf events, entry.2 = .ignore → entry = (change, behavior)

namespace Segment

variable {change other : TargetRowChange} {behavior nested : DuplicateInsertBehavior}
  {limit more : Nat} {result later : Except RepairStop Unit} {events added : List RepairEvent}

theorem nil (h : result ≠ .error .outOfFuel) : Segment change behavior limit result [] where
  finished := h
  bounded := Nat.zero_le _
  recorded := .nil
  behaviors _ hentry := by cases hentry

theorem le (h : Segment change behavior limit result events) (hle : limit ≤ more) :
    Segment change behavior more result events :=
  { h with bounded := h.bounded.trans hle }

/-- What a repair executes is a part of the execution that it repairs. -/
theorem of_nested (h : Segment other nested limit result events) (hnested : nested ≠ .ignore) :
    Segment change behavior limit result events where
  finished := h.finished
  bounded := h.bounded
  recorded := h.recorded
  behaviors entry hentry hignore := by
    obtain rfl := h.behaviors entry hentry hignore
    exact absurd hignore hnested

theorem append (h : Segment change behavior limit result events)
    (h' : Segment change behavior more later added) :
    Segment change behavior (limit + more) later (events ++ added) where
  finished := h'.finished
  bounded := by
    rw [statementsOf_append, List.length_append]
    exact Nat.add_le_add h.bounded h'.bounded
  recorded := h.recorded.append h'.recorded
  behaviors entry hentry := by
    rw [behaviorsOf_append] at hentry
    exact (List.mem_append.mp hentry).elim (h.behaviors entry) (h'.behaviors entry)

/-- A segment after an event that is no statement and no return. -/
theorem cons {event : RepairEvent} (h : Segment change behavior limit result events)
    (hsound : event.Sound) (hquiet : statementsOf [event] = [] ∧ behaviorsOf [event] = [])
    (hevent : ∀ change behavior statement result before after,
      event ≠ .returned change behavior statement result before after) :
    Segment change behavior limit result (event :: events) where
  finished := h.finished
  bounded := by
    have hsplit := statementsOf_append [event] events
    rw [hquiet.1, List.nil_append] at hsplit
    exact hsplit ▸ h.bounded
  recorded := (WellRecorded.singleton hsound hevent).append h.recorded
  behaviors entry hentry := by
    have hsplit := behaviorsOf_append [event] events
    rw [hquiet.2, List.nil_append] at hsplit
    exact h.behaviors entry (hsplit ▸ hentry)

theorem started {key : ActiveRepairKey} {active : Finset ActiveRepairKey}
    (h : Segment change behavior limit result events) (hkey : key ∉ active)
    (hdepth : active.card < maxMissingForeignKeyRepairDepth) :
    Segment change behavior limit result (.started key active :: events) :=
  h.cons ⟨hkey, hdepth⟩ ⟨rfl, rfl⟩ fun _ _ _ _ _ _ heq => by cases heq

end Segment

/-- The segment of the execution of a row change with these repairs active. -/
structure Executed (change : TargetRowChange) (behavior : DuplicateInsertBehavior)
    (active : Finset ActiveRepairKey) (result : Except RepairStop Unit)
    (events : List RepairEvent) : Prop where
  segment : Segment change behavior (statementBudget active) result events
  /-- A change other than an insert succeeds by its own statement, executed last. -/
  own : change.kind ≠ .insert → result = .ok () →
    (statementsOf events).getLast? = some (change, .ok ())
  succeeded : result = .ok () → Succeeded change behavior events

/-- The segment of what follows the statement of a row change. -/
structure AfterStatement (change : TargetRowChange) (behavior : DuplicateInsertBehavior)
    (active : Finset ActiveRepairKey) (statement : Except TargetExecuteError Unit)
    (result : Except RepairStop Unit) (events : List RepairEvent) : Prop where
  segment : Segment change behavior (statementBudget active - 1) result events
  own : change.kind ≠ .insert → result = .ok () → statement = .ok () ∧ events = [] ∨
    (statementsOf events).getLast? = some (change, .ok ())
  answered : ∀ error, statement = .error error → result = .ok () → change.kind = .insert →
    error.mysqlCode = some 1062 → behavior ≠ .ignore → DuplicateReconciled change events

theorem AfterStatement.of_error {change : TargetRowChange} {behavior : DuplicateInsertBehavior}
    {active : Finset ActiveRepairKey} {statement : Except TargetExecuteError Unit}
    (error : TargetExecuteError) :
    AfterStatement change behavior active statement (.error (.failed error)) [] where
  segment := .nil fun h => by cases h
  own _ h := by cases h
  answered _ _ h := by cases h

/-! ## Repairs -/

theorem ensureRepairDepth_eq_ok {active : Finset ActiveRepairKey} {context : String}
    (h : ensureRepairDepth active context = .ok ()) :
    active.card < maxMissingForeignKeyRepairDepth := by
  by_cases hdepth : maxMissingForeignKeyRepairDepth ≤ active.card
  · rw [ensureRepairDepth, if_pos hdepth] at h
    cases h
  · exact Nat.lt_of_not_le hdepth

theorem ensureRepairDepth_eq_error {active : Finset ActiveRepairKey} {context : String}
    {stop : RepairStop} (h : ensureRepairDepth active context = .error stop) :
    ∃ error, stop = .failed error := by
  by_cases hdepth : maxMissingForeignKeyRepairDepth ≤ active.card
  · rw [ensureRepairDepth, if_pos hdepth] at h
    exact ⟨_, (Except.error.inj h).symm⟩
  · rw [ensureRepairDepth, if_neg hdepth] at h
    cases h

section Repairs

variable {σ : Type} {executor : RepairExecutor σ} {execute : ExecuteRowChange σ}
  {active : Finset ActiveRepairKey} {change : TargetRowChange} {behavior : DuplicateInsertBehavior}

/-- The executor holds an insert superseded only if it was asked about an insert. -/
def SupersedesInserts (executor : RepairExecutor σ) : Prop :=
  ∀ change error state insert state', executor.loadMissingForeignKeyRepair change error state =
    (.ok (.supersededInsert insert), state') → change.kind = .insert

/-- Row changes are executed well with one more repair active. -/
def ExecutesBelow (execute : ExecuteRowChange σ) (active : Finset ActiveRepairKey) : Prop :=
  ∀ key, key ∉ active → active.card < maxMissingForeignKeyRepairDepth → ∀ change behavior,
    Performs (execute change behavior) (insert key active)
      (Executed change behavior (insert key active))

theorem performs_applyDuplicateParentReconciliation {below : Finset ActiveRepairKey}
    {reconciliation : DuplicateParentReconciliation}
    (behavior : DuplicateInsertBehavior) (hexecute : ∀ change behavior,
      Performs (execute change behavior) below (Executed change behavior below)) :
    Performs (applyDuplicateParentReconciliation executor execute change reconciliation) below
      fun result events =>
        Segment change behavior (statementBudget below + statementBudget below) result events ∧
          (result = .ok () → ∃ owner retry,
            events = owner ++ retry ++ [.verified change reconciliation (.ok ())] ∧
              Succeeded reconciliation.ownerChange .reconcile owner ∧
              if reconciliation.retryParentInsert then Succeeded change .reject retry
                else retry = []) := by
  unfold applyDuplicateParentReconciliation
  refine (hexecute reconciliation.ownerChange .reconcile).bind ?_ ?_
  · intro _ owner howner
    have hownerSegment : Segment change behavior (statementBudget below) (.ok ()) owner :=
      howner.segment.of_nested fun h => by cases h
    have hretry : Performs (retryParentInsert execute change reconciliation) below
        fun result retry => Segment change behavior (statementBudget below) result retry ∧
          (result = .ok () → if reconciliation.retryParentInsert then
            Succeeded change .reject retry else retry = []) := by
      unfold retryParentInsert
      by_cases hflag : reconciliation.retryParentInsert = true
      · simp only [hflag, if_true]
        refine (hexecute change .reject).mono fun result retry hretried => ?_
        exact ⟨hretried.segment.of_nested fun h => (by cases h), hretried.succeeded⟩
      · simp only [hflag]
        exact .of_pure ⟨.nil fun h => (by cases h), fun _ => rfl⟩
    refine hretry.bind ?_ ?_
    · rintro _ retry ⟨hretrySegment, hretried⟩
      refine Performs.callVerify.mono ?_
      rintro _ _ ⟨verified, rfl, rfl⟩
      have hverified : Segment change behavior 0 (verified.mapError RepairStop.failed)
          [.verified change reconciliation verified] := by
        refine (Segment.nil ?_).cons trivial ⟨rfl, rfl⟩ fun _ _ _ _ _ _ heq => by cases heq
        cases verified with
        | error error => exact fun h => by cases h
        | ok value => exact fun h => by cases h
      refine ⟨?_, ?_⟩
      · rw [← List.append_assoc]
        exact (hownerSegment.append hretrySegment).append hverified
      · intro hok
        refine ⟨owner, retry, ?_, howner.succeeded rfl, hretried rfl⟩
        cases verified with
        | error error => cases hok
        | ok value => rw [← List.append_assoc]
    · rintro stop retry ⟨hretrySegment, -⟩
      exact ⟨hownerSegment.append hretrySegment, fun h => by cases h⟩
  · intro stop owner howner
    refine ⟨(howner.segment.of_nested fun h => by cases h).le (Nat.le_add_right _ _),
      fun h => by cases h⟩

/-- A duplicate insert is reconciled, or the execution fails. -/
theorem performs_reconcileDuplicateParent (behavior : DuplicateInsertBehavior)
    (hexecute : ExecutesBelow execute active) {error : TargetExecuteError} :
    Performs (reconcileDuplicateParent executor execute change error) active
      fun result events => Segment change behavior (statementBudget active - 1) result events ∧
        (result = .ok () → DuplicateReconciled change events) := by
  have hfailed : ∀ error, Segment change behavior (statementBudget active - 1)
      (.error (.failed error)) [] ∧ ((.error (.failed error) : Except RepairStop Unit) = .ok () →
        DuplicateReconciled change []) := fun error => ⟨.nil fun h => (by cases h), fun h => by cases h⟩
  refine Performs.callExecutor_bind ?_ hfailed
  intro reconciliation _ _ _
  refine Performs.reads_active (Performs.ofExcept_bind ?_ ?_)
  · intro _ hstart
    unfold ensureDuplicateRepairCanStart at hstart
    by_cases hkey : ActiveRepairKey.duplicateParent reconciliation.repairKey ∈ active
    · rw [if_pos hkey] at hstart
      cases hstart
    rw [if_neg hkey] at hstart
    have hdepth := ensureRepairDepth_eq_ok hstart
    have hbudget := statementBudget_insert hkey hdepth
    have hnote : Performs (note (.reconciliation change reconciliation) : Repairing σ Unit)
        (insert (ActiveRepairKey.duplicateParent reconciliation.repairKey) active)
        fun result events => result = .ok () ∧ events = [.reconciliation change reconciliation] :=
      Performs.note_event _ ⟨rfl, rfl⟩
    refine Performs.withActiveRepair hkey (hnote.bind ?_ ?_)
    · rintro _ _ ⟨-, rfl⟩
      refine (performs_applyDuplicateParentReconciliation behavior (hexecute _ hkey hdepth)).mono ?_
      rintro result events ⟨hsegment, hanswer⟩
      have hbelow : Segment change behavior (statementBudget active - 1) result events :=
        hsegment.le (by omega)
      have hloaded : Segment change behavior (statementBudget active - 1) result
          (.reconciliation change reconciliation :: events) :=
        hbelow.cons trivial ⟨rfl, rfl⟩ fun _ _ _ _ _ _ heq => by cases heq
      refine ⟨hloaded.started hkey hdepth, ?_⟩
      intro hok
      obtain ⟨owner, retry, rfl, howner, hretry⟩ := hanswer hok
      exact ⟨[.started _ active], reconciliation, owner, retry, rfl, howner, hretry⟩
    · rintro _ _ ⟨herror, -⟩
      cases herror
  · intro stop hstop
    unfold ensureDuplicateRepairCanStart at hstop
    by_cases hkey : ActiveRepairKey.duplicateParent reconciliation.repairKey ∈ active
    · rw [if_pos hkey] at hstop
      obtain rfl := Except.error.inj hstop
      exact hfailed _
    · rw [if_neg hkey] at hstop
      obtain ⟨failure, rfl⟩ := ensureRepairDepth_eq_error hstop
      exact hfailed failure

/-- A change whose parent was missing is executed again, or it was an insert. -/
theorem performs_repairParentAndRetry (hsupersedes : SupersedesInserts executor)
    (hexecute : ExecutesBelow execute active) {error : TargetExecuteError} :
    Performs (repairParentAndRetry executor execute change error behavior) active
      fun result events => Segment change behavior (statementBudget active - 1) result events ∧
        (change.kind ≠ .insert → result = .ok () →
          (statementsOf events).getLast? = some (change, .ok ())) := by
  have hfailed : ∀ error, Segment change behavior (statementBudget active - 1)
      (.error (.failed error)) [] ∧ (change.kind ≠ .insert →
        (.error (.failed error) : Except RepairStop Unit) = .ok () →
          (statementsOf []).getLast? = some (change, .ok ())) :=
    fun error => ⟨.nil fun h => (by cases h), fun _ h => by cases h⟩
  refine Performs.callExecutor_bind ?_ hfailed
  intro repair state state' hload
  refine Performs.reads_active (Performs.ofExcept_bind ?_ ?_)
  · intro _ hstart
    unfold ensureMissingForeignKeyRepairCanStart at hstart
    by_cases hkey : ActiveRepairKey.missingForeignKey repair.repairKey ∈ active
    · rw [if_pos hkey] at hstart
      cases hstart
    rw [if_neg hkey] at hstart
    have hdepth := ensureRepairDepth_eq_ok hstart
    have hbudget := statementBudget_insert hkey hdepth
    have hbelow := hexecute _ hkey hdepth
    refine Performs.withActiveRepair hkey ?_
    cases repair with
    | parent parent =>
      refine (hbelow parent.change .reconcile).bind ?_ ?_
      · intro _ events hparent
        have hparentSegment : Segment change behavior _ (.ok ()) events :=
          hparent.segment.of_nested fun h => by cases h
        refine (hbelow change behavior).mono fun result more hchange => ⟨?_, ?_⟩
        · exact ((hparentSegment.append hchange.segment).le (by omega)).started hkey hdepth
        · intro hkind hok
          have hlast := hchange.own hkind hok
          have hsplit : statementsOf (.started (.missingForeignKey parent.repairKey) active ::
              (events ++ more)) = statementsOf events ++ statementsOf more :=
            statementsOf_append _ _
          exact hsplit ▸ (by rw [List.getLast?_append, hlast]; rfl)
      · intro stop events hparent
        exact ⟨((hparent.segment.of_nested fun h => by cases h).le (by omega)).started hkey hdepth,
          fun _ h => by cases h⟩
    | supersededInsert insert =>
      have hinsert := hsupersedes change error state insert state' hload
      cases hcurrent : insert.currentChange with
      | none =>
        rw [show applyMissingForeignKeyRepair execute change behavior (.supersededInsert insert) =
          pure () by simp only [applyMissingForeignKeyRepair, reconcileSupersededInsert, hcurrent]]
        exact .of_pure ⟨(Segment.nil fun h => by cases h).started hkey hdepth,
          fun hkind => absurd hinsert hkind⟩
      | some currentChange =>
        rw [show applyMissingForeignKeyRepair execute change behavior (.supersededInsert insert) =
          execute currentChange .reconcile by
            simp only [applyMissingForeignKeyRepair, reconcileSupersededInsert, hcurrent]]
        refine (hbelow currentChange .reconcile).mono fun result events hcurrent => ⟨?_,
          fun hkind => absurd hinsert hkind⟩
        exact ((hcurrent.segment.of_nested fun h => by cases h).le (by omega)).started hkey hdepth
  · intro stop hstop
    unfold ensureMissingForeignKeyRepairCanStart at hstop
    by_cases hkey : ActiveRepairKey.missingForeignKey repair.repairKey ∈ active
    · rw [if_pos hkey] at hstop
      obtain rfl := Except.error.inj hstop
      exact hfailed _
    · rw [if_neg hkey] at hstop
      obtain ⟨failure, rfl⟩ := ensureRepairDepth_eq_error hstop
      exact hfailed failure

/-- What follows the statement is a repair, or nothing. -/
theorem performs_afterStatement (hsupersedes : SupersedesInserts executor)
    (hexecute : ExecutesBelow execute active) (statement : Except TargetExecuteError Unit) :
    Performs (afterStatement executor execute change behavior statement) active
      (AfterStatement change behavior active statement) := by
  cases statement with
  | ok value =>
    refine Performs.of_pure ⟨.nil fun h => (by cases h), fun _ _ => .inl ⟨rfl, rfl⟩, ?_⟩
    rintro error ⟨⟩
  | error error =>
    unfold afterStatement
    dsimp only
    by_cases hduplicate : error.mysqlCode = some 1062 ∧ change.kind = .insert
    · rw [if_pos hduplicate]
      cases behavior with
      | ignore =>
        exact Performs.of_pure ⟨.nil fun h => (by cases h), fun hkind => absurd hduplicate.2 hkind,
          fun _ _ _ _ _ hignore => absurd rfl hignore⟩
      | reject => exact Performs.of_fail (.of_error error)
      | reconcile =>
        refine (performs_reconcileDuplicateParent .reconcile hexecute).mono fun result events h => ?_
        exact ⟨h.1, fun hkind => absurd hduplicate.2 hkind, fun _ _ hok _ _ _ => h.2 hok⟩
    · rw [if_neg hduplicate]
      by_cases hother : error.mysqlCode ≠ some 1452 ∨ change.kind = .delete
      · rw [if_pos hother]
        exact Performs.of_fail (.of_error error)
      · rw [if_neg hother]
        refine (performs_repairParentAndRetry hsupersedes hexecute).mono fun result events h => ?_
        refine ⟨h.1, fun hkind hok => .inr (h.2 hkind hok), ?_⟩
        rintro _ ⟨⟩ - hkind hcode -
        exact absurd ⟨hcode, hkind⟩ hduplicate

end Repairs

/-! ## Executions -/

/-- Every execution with fuel for the levels that are left is an execution as it should be. -/
theorem performs_executeRowChangeWithActiveRepairs {σ : Type} {executor : RepairExecutor σ}
    (hsupersedes : SupersedesInserts executor) {fuel : Nat} {active : Finset ActiveRepairKey}
    (hactive : active.card ≤ maxMissingForeignKeyRepairDepth)
    (hfuel : maxMissingForeignKeyRepairDepth + 1 ≤ fuel + active.card) (change : TargetRowChange)
    (behavior : DuplicateInsertBehavior) :
    Performs (executeRowChangeWithActiveRepairs executor fuel change behavior) active
      (Executed change behavior active) := by
  induction fuel generalizing active change behavior with
  | zero => omega
  | succ fuel ih =>
    have hbelow : ExecutesBelow (executeRowChangeWithActiveRepairs executor fuel) active := by
      intro key hkey hdepth change behavior
      apply ih
      · rw [Finset.card_insert_of_notMem hkey]
        omega
      · rw [Finset.card_insert_of_notMem hkey]
        omega
    have hbudget := statementBudget_pos hactive
    refine Performs.reads_active (Performs.callStatement_bind fun statement => ?_)
    refine Performs.returning ((performs_afterStatement hsupersedes hbelow statement).mono ?_)
    intro result events hfollowed
    have hstatements : statementsOf (.statement change behavior active statement ::
        (events ++ [.returned change behavior statement result active active])) =
          (change, statement) :: statementsOf events := by
      have hsplit := statementsOf_append events
        [.returned change behavior statement result active active]
      rw [show statementsOf [.returned change behavior statement result active active] = [] from rfl,
        List.append_nil] at hsplit
      exact congrArg ((change, statement) :: ·) hsplit
    refine ⟨⟨hfollowed.segment.finished, ?_, ?_, ?_⟩, ?_, ?_⟩
    · have hbounded := hfollowed.segment.bounded
      rw [hstatements, List.length_cons]
      omega
    · have hfirst : WellRecorded [.statement change behavior active statement] :=
        .singleton hactive fun _ _ _ _ _ _ heq => by cases heq
      exact hfirst.append (hfollowed.segment.recorded.close hfollowed.answered)
    · intro entry hentry
      have hsplit : behaviorsOf (.statement change behavior active statement ::
          (events ++ [.returned change behavior statement result active active])) =
            (change, behavior) :: behaviorsOf events := by
        have happend := behaviorsOf_append events
          [.returned change behavior statement result active active]
        rw [show behaviorsOf [.returned change behavior statement result active active] = [] from rfl,
          List.append_nil] at happend
        exact congrArg ((change, behavior) :: ·) happend
      rw [hsplit] at hentry
      rcases List.mem_cons.mp hentry with rfl | hentry
      · exact fun _ => rfl
      · exact hfollowed.segment.behaviors entry hentry
    · intro hkind hok
      rw [hstatements]
      rcases hfollowed.own hkind hok with ⟨rfl, rfl⟩ | hlast
      · rfl
      · rw [List.getLast?_cons, hlast]
        rfl
    · rintro rfl
      exact ⟨⟨active, statement, _, rfl⟩, .statement change behavior active statement :: events,
        statement, active, active, rfl⟩

/-- With any executor that holds only inserts superseded, the execution of a row change ends after
at most 511 statements. Never more than eight repairs are active, none is started while it is active,
and every execution leaves the active repairs as it found them. A change other than an insert
succeeds only by its own statement, executed last. Only the change itself is executed with duplicates
ignored, and a duplicate insert that a repair executes succeeds only by a reconciliation that was
verified. -/
theorem executeRowChangeWithMissingForeignKeyRepair_spec {σ : Type} (executor : RepairExecutor σ)
    (hsupersedes : SupersedesInserts executor) (change : TargetRowChange) (state : σ) :
    (executeRowChangeWithMissingForeignKeyRepair executor change state).1 ≠ .error .outOfFuel ∧
      (statementsOf (executeRowChangeWithMissingForeignKeyRepair executor change
        state).2.log).length ≤ 511 ∧
      (executeRowChangeWithMissingForeignKeyRepair executor change state).2.active = ∅ ∧
      WellRecorded (executeRowChangeWithMissingForeignKeyRepair executor change state).2.log ∧
      (∀ entry ∈ behaviorsOf (executeRowChangeWithMissingForeignKeyRepair executor change
        state).2.log, entry.2 = .ignore → entry.1 = change) ∧
      (change.kind ≠ .insert →
        (executeRowChangeWithMissingForeignKeyRepair executor change state).1 = .ok () →
          (statementsOf (executeRowChangeWithMissingForeignKeyRepair executor change
            state).2.log).getLast? = some (change, .ok ())) := by
  have hempty : (∅ : Finset ActiveRepairKey).card ≤ maxMissingForeignKeyRepairDepth := Nat.zero_le _
  obtain ⟨events, hlog, hactive, hexecuted⟩ := performs_executeRowChangeWithActiveRepairs
    hsupersedes hempty (Nat.le_refl _) change .ignore ⟨state, ∅, []⟩ rfl
  change (executeRowChangeWithMissingForeignKeyRepair executor change state).2.log = [] ++ events
    at hlog
  rw [List.nil_append] at hlog
  rw [hlog]
  refine ⟨hexecuted.segment.finished, hexecuted.segment.bounded, hactive,
    hexecuted.segment.recorded, ?_, hexecuted.own⟩
  intro entry hentry hignore
  rw [hexecuted.segment.behaviors entry hentry hignore]

/-- A target on which the parent of a row is missing until the second statement. -/
def orphanExecutor : RepairExecutor Nat where
  executeRowChangeStatement _ := fun statements =>
    if statements = 0 then
      (.error { message := "CONSTRAINT orders_guest", mysqlCode := some 1452 }, 1)
    else (.ok (), statements + 1)
  loadMissingForeignKeyRepair _ _ := pure (.parent {
    change := {
      statement := { sql := "INSERT INTO guests (id) VALUES (?)", params := [.int 7] }
      kind := .insert
      schema := "hotel"
      table := "guests"
      values := [("id", .int 7)] }
    constraint := "orders_guest"
    repairKey := {
      childSchema := "hotel"
      childTable := "orders"
      constraint := "orders_guest"
      values := ["7"] } })
  loadDuplicateParentReconciliation _ error := Prog.fail error
  verifyDuplicateParentReconciliation _ _ :=
    Prog.fail (.new "duplicate-parent verification is unavailable")

/-- A change of a row whose parent is missing. -/
def orphanUpdate : TargetRowChange where
  statement := { sql := "UPDATE orders SET guest_id = ?", params := [.int 7] }
  kind := .update
  schema := "hotel"
  table := "orders"
  values := [("guest_id", .int 7)]

theorem executeRowChangeWithMissingForeignKeyRepair_spec_orphan :
    (statementsOf (executeRowChangeWithMissingForeignKeyRepair orphanExecutor orphanUpdate
      0).2.log).length ≤ 511 ∧
    (statementsOf (executeRowChangeWithMissingForeignKeyRepair orphanExecutor orphanUpdate
      0).2.log).getLast? = some (orphanUpdate, .ok ()) := by
  have hsupersedes : SupersedesInserts orphanExecutor := by
    rintro change error state insert state' hload
    cases (Prod.mk.inj hload).1
  have hspec := executeRowChangeWithMissingForeignKeyRepair_spec orphanExecutor hsupersedes
    orphanUpdate 0
  exact ⟨hspec.2.1, hspec.2.2.2.2.2 (by decide) (by decide +kernel)⟩

end BinlogCdc
