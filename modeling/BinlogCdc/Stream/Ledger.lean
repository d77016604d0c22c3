import BinlogCdc.Stream.EventRule
import BinlogCdc.Target.View

/-!
# The ledger of applied work

The work in the view of the stream's connection grows by the work of every event. The
durable work is a beginning of it: a commit makes everything applied so far durable, and
nothing is ever taken back. The durable checkpoint moves to the checkpoint pending before
the event or to the checkpoint of the event itself, and only together with the work
before it.
-/

namespace BinlogCdc

/-! ## Scripts of work and of commits -/

namespace Target

variable {target : Target}

@[simp] theorem applyAll_nil (target : Target) : target.applyAll [] = target := rfl

@[simp] theorem applyAll_cons (target : Target) (work : TargetWork) (rest : List TargetWork) :
    target.applyAll (work :: rest) = (target.applyOne work).applyAll rest := rfl

@[simp] theorem applyOne_view_work (target : Target) (work : TargetWork) :
    (target.applyOne work).view.work = target.view.work ++ [work] := by
  cases work <;> simp [applyOne]

theorem OnlyWork.applyOne (h : target.OnlyWork) (work : TargetWork) :
    (target.applyOne work).OnlyWork := by
  cases work with
  | rowChange source change => exact h.applyWork _
  | statement source sql => exact h.replay source sql

/-- Work extends the view by itself. -/
@[simp] theorem applyAll_view_work (target : Target) (work : List TargetWork) :
    (target.applyAll work).view.work = target.view.work ++ work := by
  induction work generalizing target with
  | nil => simp
  | cons work rest ih => simp [ih]

theorem OnlyWork.applyAll (h : target.OnlyWork) (work : List TargetWork) :
    (target.applyAll work).OnlyWork := by
  induction work generalizing target with
  | nil => exact h
  | cons work rest ih => exact ih (h.applyOne work)

/-- Work becomes durable together with everything before it, or not at all. -/
theorem applyWork_db_work (target : Target) (work : List TargetWork) :
    (target.applyWork work).db.work = target.db.work ∨
      (target.applyWork work).db.work = target.view.work ++ work := by
  unfold applyWork
  cases h : target.transaction with
  | none => exact Or.inr (by simp [change_of_none h, view_of_none h])
  | some changes => exact Or.inl (by simp [change_of_some h])

theorem applyOne_db_work (target : Target) (work : TargetWork) :
    (target.applyOne work).db.work = target.db.work ∨
      target.view.work <+: (target.applyOne work).db.work := by
  have happly : ∀ (t : Target) (w : List TargetWork),
      (t.applyWork w).db.work = t.db.work ∨ t.view.work <+: (t.applyWork w).db.work := by
    intro t w
    rcases t.applyWork_db_work w with h | h
    · exact Or.inl h
    · exact Or.inr (h ▸ List.prefix_append _ _)
  cases work with
  | rowChange source change => exact happly target _
  | statement source sql =>
    simp only [applyOne, replay]
    split
    · rcases happly target.commit [.statement source sql] with h | h
      · exact Or.inr (by rw [h, commit_db])
      · exact Or.inr (by rwa [commit_view] at h)
    · exact happly target _

/-- Work leaves the durable checkpoint alone, unless a transaction holds another one. -/
theorem OnlyWork.applyOne_db_checkpoint (h : target.OnlyWork) (work : TargetWork) :
    (target.applyOne work).db.checkpoint = target.db.checkpoint := by
  have hdb := (h.applyOne work).view_checkpoint
  rw [← hdb, ← h.view_checkpoint]
  cases work with
  | rowChange source change => exact target.applyWork_view_checkpoint _
  | statement source sql =>
    simp only [Target.applyOne, Target.replay]
    split
    · rw [applyWork_view_checkpoint, commit_view]
    · exact target.applyWork_view_checkpoint _

end Target

/-- What applying work makes durable. -/
theorem workScript_durable {target : Target} (h : target.OnlyWork) {work : List TargetWork}
    {x : TraceEntry} (hx : x ∈ workScript target work) :
    (x.after.db.work = target.db.work ∨ target.view.work <+: x.after.db.work) ∧
      x.after.db.work <+: target.view.work ++ work ∧
      x.after.db.checkpoint = target.db.checkpoint := by
  induction work generalizing target with
  | nil => cases hx
  | cons work rest ih =>
    rcases List.mem_cons.mp hx with rfl | hx
    · refine ⟨target.applyOne_db_work work, ?_, h.applyOne_db_checkpoint work⟩
      refine (target.applyOne work).work_prefix_view.trans ?_
      rw [Target.applyOne_view_work]
      exact ⟨rest, by simp⟩
    · obtain ⟨hdurable, hbound, hcheckpoint⟩ := ih (h.applyOne work) hx
      rw [Target.applyOne_view_work] at hdurable hbound
      refine ⟨?_, by simpa using hbound, hcheckpoint.trans (h.applyOne_db_checkpoint work)⟩
      rcases hdurable with hdurable | hdurable
      · rw [hdurable]
        exact target.applyOne_db_work work
      · exact Or.inr ((List.prefix_append _ _).trans hdurable)

/-- What all of the work leaves durable. -/
theorem applyAll_durable {target : Target} (h : target.OnlyWork) (work : List TargetWork) :
    ((target.applyAll work).db.work = target.db.work ∨
        target.view.work <+: (target.applyAll work).db.work) ∧
      (target.applyAll work).db.checkpoint = target.db.checkpoint := by
  induction work generalizing target with
  | nil => exact ⟨Or.inl rfl, rfl⟩
  | cons work rest ih =>
    obtain ⟨hdurable, hcheckpoint⟩ := ih (h.applyOne work)
    refine ⟨?_, hcheckpoint.trans (h.applyOne_db_checkpoint work)⟩
    rw [Target.applyAll_cons]
    rcases hdurable with hdurable | hdurable
    · rw [hdurable]
      exact target.applyOne_db_work work
    · rw [Target.applyOne_view_work] at hdurable
      exact Or.inr ((List.prefix_append _ _).trans hdurable)

/-- What the commit of a group makes durable: the pending checkpoint, if there is one, with all
work before it. -/
theorem commitScript_durable {target : Target} (h : target.OnlyWork)
    {pending : Option Checkpoint} {x : TraceEntry} (hx : x ∈ commitScript target pending) :
    (x.after.db.work = target.db.work ∨ x.after.db.work = target.view.work) ∧
      (x.after.db.checkpoint = target.db.checkpoint ∨
        ∃ checkpoint, pending = some checkpoint ∧ x.after.db.checkpoint = some checkpoint ∧
          x.after.db.work = target.view.work) := by
  cases pending with
  | none =>
    simp only [commitScript, saveScript, Target.savePending, List.nil_append,
      List.mem_singleton] at hx
    subst hx
    exact ⟨Or.inr rfl, Or.inl h.view_checkpoint⟩
  | some checkpoint =>
    simp only [commitScript, saveScript, Target.savePending, List.cons_append, List.nil_append,
      List.mem_cons, List.not_mem_nil, or_false] at hx
    rcases hx with rfl | rfl | rfl
    · exact ⟨Or.inl rfl, Or.inl rfl⟩
    · cases ht : target.transaction with
      | none =>
        have hsaved : target.saveCheckpoint checkpoint =
            ⟨target.db.apply { checkpoint := some checkpoint }, none⟩ :=
          Target.change_of_none ht _
        simp [hsaved, Target.view_of_none ht]
      | some changes =>
        have hsaved : target.saveCheckpoint checkpoint =
            ⟨target.db, some { changes with checkpoint := some checkpoint }⟩ :=
          Target.change_of_some ht _
        simp [hsaved]
    · have hwork : (target.saveCheckpoint checkpoint).view.work = target.view.work :=
        target.saveCheckpoint_view_work checkpoint
      exact ⟨Or.inr hwork, Or.inr ⟨checkpoint, rfl,
        target.saveCheckpoint_view_checkpoint checkpoint, hwork⟩⟩

/-- What a direct store makes durable. -/
theorem storeScript_durable {c : StreamCore} {checkpoint : Checkpoint} {x : TraceEntry}
    (hx : x ∈ c.storeScript checkpoint) :
    x.after.db.work = c.target.db.work ∧
      (x.after.db.checkpoint = c.target.db.checkpoint ∨
        x.after.db.checkpoint = some checkpoint) := by
  unfold StreamCore.storeScript at hx
  split at hx
  · cases hx
  · rcases List.mem_append.mp hx with hx | hx
    · split at hx
      · cases List.mem_singleton.mp hx
        exact ⟨rfl, Or.inl rfl⟩
      · cases hx
    · split at hx
      · cases hx
      · cases List.mem_singleton.mp hx
        exact ⟨rfl, Or.inr rfl⟩

/-! ## Between two events -/

/-- What holds of a stream in target-table mode between two events. -/
structure StreamCore.Sound (c : StreamCore) : Prop where
  /-- The record of the transaction is valid. -/
  valid : c.targetTransaction.Valid
  /-- The open transaction holds only work. -/
  onlyWork : c.target.OnlyWork
  /-- Without a transaction of its own the stream has none on the target. -/
  closed : c.targetTransaction.isOpen = false → c.target.transaction = none

/-- The state is reached from another one inside an event: the work was applied, and at most the
pending checkpoint was written, with the work before the event. -/
structure StreamCore.Advanced (c : StreamCore) (work : List TargetWork) (m : StreamCore) :
    Prop where
  /-- The state could stand between two events. -/
  sound : m.Sound
  /-- The view has the work. -/
  view : m.target.view.work = c.target.view.work ++ work
  /-- Nothing new is durable, or everything before the event is. -/
  durable : m.target.db.work = c.target.db.work ∨ c.target.view.work <+: m.target.db.work
  /-- The checkpoint is the old one, or the pending one with the work before the event. -/
  checkpoint : m.target.db.checkpoint = c.target.db.checkpoint ∨
    ∃ checkpoint, c.pending = some checkpoint ∧ m.target.db.checkpoint = some checkpoint ∧
      c.target.view.work <+: m.target.db.work
  /-- The pending checkpoint is still there, or gone. -/
  pending : m.pending = c.pending ∨ m.pending = none

/-- What may be durable while an event with the given work and checkpoint is handled. -/
structure StreamCore.Within (c : StreamCore) (work : List TargetWork) (next : Option Checkpoint)
    (db : TargetDb) : Prop where
  /-- Nothing new is durable, or everything before the event is. -/
  durable : db.work = c.target.db.work ∨ c.target.view.work <+: db.work
  /-- Nothing beyond the event is durable. -/
  bound : db.work <+: c.target.view.work ++ work
  /-- The checkpoint is the old one, the pending one with the work before the event, or the one
  of the event with its work. -/
  checkpoint : db.checkpoint = c.target.db.checkpoint ∨
    (∃ checkpoint, c.pending = some checkpoint ∧ db.checkpoint = some checkpoint ∧
      c.target.view.work <+: db.work) ∨
    ∃ checkpoint, next = some checkpoint ∧ db.checkpoint = some checkpoint ∧
      c.target.view.work ++ work <+: db.work

namespace StreamCore

variable {codec : RowCodec} {config : TargetTransactionGroupConfig} {c m : StreamCore}
  {header : EventHeader} {event : BinlogEvent} {work more : List TargetWork}
  {next : Option Checkpoint}

/-- What was durable before the event may be durable during it. -/
theorem Within.refl (c : StreamCore) (work : List TargetWork) (next : Option Checkpoint) :
    c.Within work next c.target.db :=
  ⟨Or.inl rfl, c.target.work_prefix_view.trans (List.prefix_append _ _), Or.inl rfl⟩

/-- Everything durable in an advanced state may be durable during the event. -/
theorem Advanced.within (h : c.Advanced work m) (more : List TargetWork) {db : TargetDb}
    (hwork : db.work = m.target.db.work ∨ db.work = m.target.view.work)
    (hcheckpoint : db.checkpoint = m.target.db.checkpoint ∨
      ∃ checkpoint, m.pending = some checkpoint ∧ db.checkpoint = some checkpoint ∧
        db.work = m.target.view.work) :
    c.Within (work ++ more) next db := by
  have hview : c.target.view.work <+: m.target.view.work := by
    rw [h.view]
    exact List.prefix_append _ _
  have hdurable : db.work = c.target.db.work ∨ c.target.view.work <+: db.work := by
    rcases hwork with hwork | hwork
    · rw [hwork]
      exact h.durable
    · exact Or.inr (hwork ▸ hview)
  refine ⟨hdurable, ?_, ?_⟩
  · have hbound : m.target.view.work <+: c.target.view.work ++ (work ++ more) := by
      rw [h.view, ← List.append_assoc]
      exact List.prefix_append _ _
    rcases hwork with hwork | hwork
    · exact hwork ▸ m.target.work_prefix_view.trans hbound
    · exact hwork ▸ hbound
  · rcases hcheckpoint with hcheckpoint | ⟨checkpoint, hpending, hcheckpoint, hall⟩
    · rcases h.checkpoint with hold | ⟨checkpoint, hpending, hsaved, hbefore⟩
      · exact Or.inl (hcheckpoint.trans hold)
      · refine Or.inr (Or.inl ⟨checkpoint, hpending, hcheckpoint.trans hsaved, ?_⟩)
        rcases hwork with hwork | hwork
        · exact hwork ▸ hbefore
        · exact hwork ▸ hview
    · rcases h.pending with hsame | hnone
      · exact Or.inr (Or.inl ⟨checkpoint, hsame ▸ hpending, hcheckpoint, hall ▸ hview⟩)
      · rw [hnone] at hpending
        cases hpending

/-- Every state is advanced from itself. -/
theorem Advanced.refl (h : c.Sound) : c.Advanced [] c :=
  ⟨h, by simp, Or.inl rfl, Or.inl rfl, Or.inl rfl⟩

/-- The commit of a group makes the work and the pending checkpoint durable. -/
theorem committed_db (h : c.target.OnlyWork) :
    c.committed.target.db.work = c.target.view.work ∧
      (c.committed.target.db.checkpoint = c.target.db.checkpoint ∨
        ∃ checkpoint, c.pending = some checkpoint ∧
          c.committed.target.db.checkpoint = some checkpoint) := by
  simp only [committed, Target.commit_db]
  cases hpending : c.pending with
  | none => exact ⟨rfl, Or.inl h.view_checkpoint⟩
  | some checkpoint =>
    exact ⟨c.target.saveCheckpoint_view_work checkpoint, Or.inr ⟨checkpoint, rfl,
      c.target.saveCheckpoint_view_checkpoint checkpoint⟩⟩

/-- After a commit the stream is sound. -/
theorem committed_sound : c.committed.Sound :=
  ⟨committed_valid, Target.onlyWork_of_none rfl, fun _ => rfl⟩

/-- A commit keeps the view. -/
theorem committed_view_work : c.committed.target.view.work = c.target.view.work := by
  simp only [committed, Target.commit_view]
  cases c.pending with
  | none => rfl
  | some checkpoint => exact c.target.saveCheckpoint_view_work checkpoint

/-- Flushing the group advances the state without work. -/
theorem flushed_advanced (h : c.Sound) : c.Advanced [] c.flushed := by
  unfold flushed
  split
  · obtain ⟨hwork, hcheckpoint⟩ := committed_db h.onlyWork
    refine ⟨committed_sound, by simp [committed_view_work], ?_, ?_, Or.inr rfl⟩
    · exact Or.inr (hwork ▸ List.prefix_refl _)
    · rcases hcheckpoint with hold | ⟨checkpoint, hpending, hsaved⟩
      · exact Or.inl hold
      · exact Or.inr ⟨checkpoint, hpending, hsaved, hwork ▸ List.prefix_refl _⟩
  · exact Advanced.refl h

/-- What flushing the group makes durable. -/
theorem flushScript_within (h : c.Sound) {x : TraceEntry} (hx : x ∈ c.flushScript) :
    c.Within work next x.after.db := by
  unfold flushScript at hx
  split at hx
  · obtain ⟨hwork, hcheckpoint⟩ := commitScript_durable h.onlyWork hx
    simpa using (Advanced.refl h).within work hwork hcheckpoint
  · cases hx

/-- Flushing the group before an event advances the state without work. -/
theorem settled_advanced (config : TargetTransactionGroupConfig) (event : BinlogEvent)
    (h : c.Sound) (now : Nat) :
    c.Advanced [] (c.settled config event now) := by
  unfold settled
  split
  · exact flushed_advanced h
  · exact Advanced.refl h

/-- Beginning a transaction keeps an advanced state advanced. -/
theorem Advanced.entered (h : c.Advanced [] m) (now : Nat) :
    c.Advanced [] (m.entered event now) := by
  unfold StreamCore.entered begun
  split
  · split
    · exact h
    · next hclosed =>
      have hnone := h.sound.closed (by simpa using hclosed)
      have hdb : m.target.begin.db = m.target.db := Target.view_of_none hnone
      refine ⟨⟨⟨fun _ => rfl, h.sound.valid.noFile⟩, m.target.onlyWork_begin, by simp⟩, ?_, ?_, ?_,
        h.pending⟩
      · rw [Target.begin_view]
        exact h.view
      · rw [hdb]
        exact h.durable
      · rw [hdb]
        exact h.checkpoint
  · exact h

/-- The handlers find the event in an advanced state. -/
theorem ready_advanced (config : TargetTransactionGroupConfig) (event : BinlogEvent) (h : c.Sound)
    (now : Readings) : c.Advanced [] (c.ready config event now) :=
  (settled_advanced config event h now.before).entered now.opened

/-! ## The reader -/

/-- Committing does not read. -/
@[simp] theorem settled_reader (now : Nat) : (c.settled config event now).reader = c.reader := by
  unfold settled flushed
  split
  · split <;> rfl
  · rfl

/-- Beginning a transaction does not read. -/
@[simp] theorem ready_reader (now : Readings) : (c.ready config event now).reader = c.reader := by
  unfold ready entered begun
  split
  · split
    · exact settled_reader now.before
    · exact settled_reader now.before
  · exact settled_reader now.before

@[simp] theorem ready_state (now : Readings) : (c.ready config event now).state = c.state :=
  congrArg Reader.state (ready_reader now)

/-! ## The stages after the handlers -/

/-- The handlers advance the state by the work of the event. -/
theorem Advanced.handled (h : c.Advanced [] m) (codec : RowCodec) (header : EventHeader)
    (event : BinlogEvent) :
    c.Advanced (m.reader.work codec header event) (m.handled codec header event) := by
  obtain ⟨hdurable, hcheckpoint⟩ :=
    applyAll_durable h.sound.onlyWork (m.reader.work codec header event)
  have hview : m.target.view.work = c.target.view.work := by simpa using h.view
  have hnone : ∀ (target : Target) (work : List TargetWork), target.transaction = none →
      (target.applyAll work).transaction = none := by
    intro target work
    induction work generalizing target with
    | nil => exact id
    | cons work rest ih =>
      intro ht
      refine ih _ ?_
      cases work with
      | rowChange source change => exact congrArg Target.transaction (Target.change_of_none ht _)
      | statement source sql =>
        simp only [Target.applyOne, Target.replay]
        split
        · exact congrArg Target.transaction (Target.change_of_none target.commit_transaction _)
        · exact congrArg Target.transaction (Target.change_of_none ht _)
  refine ⟨⟨h.sound.valid, h.sound.onlyWork.applyAll _, ?_⟩, ?_, ?_, ?_, h.pending⟩
  · intro hclosed
    exact hnone _ _ (h.sound.closed hclosed)
  · simp only [StreamCore.handled, Target.applyAll_view_work, hview]
  · simp only [StreamCore.handled]
    rcases hdurable with hdurable | hdurable
    · rw [hdurable]
      exact h.durable
    · exact Or.inr (hview ▸ hdurable)
  · simp only [StreamCore.handled]
    rw [hcheckpoint]
    rcases h.checkpoint with hold | ⟨checkpoint, hpending, hsaved, hbefore⟩
    · exact Or.inl hold
    · refine Or.inr ⟨checkpoint, hpending, hsaved, ?_⟩
      rcases hdurable with hdurable | hdurable
      · rw [hdurable]
        exact hbefore
      · exact hview ▸ hdurable

/-- Counting a source transaction keeps an advanced state advanced. -/
theorem Advanced.counted (h : c.Advanced work m) : c.Advanced work m.counted := by
  have hopen : m.counted.targetTransaction.isOpen = m.targetTransaction.isOpen := by
    simp only [StreamCore.counted, TargetTransaction.recordSourceTransaction]
    split <;> rfl
  have hpending : m.counted.pending = m.pending := by
    simp only [StreamCore.counted, StreamCore.pending, TargetTransaction.recordSourceTransaction]
    split <;> rfl
  refine ⟨⟨h.sound.valid.recordSourceTransaction, h.sound.onlyWork, ?_⟩, h.view, h.durable,
    h.checkpoint, ?_⟩
  · rw [hopen]
    exact h.sound.closed
  · rw [hpending]
    exact h.pending

/-- The checkpoint of an event. -/
def nextCheckpoint (c : StreamCore) (header : EventHeader) (event : BinlogEvent) :
    Option Checkpoint :=
  (c.reader.resume header event).map fun coordinate =>
    coordinateCheckpoint coordinate (eventName event)

/-- What a direct store leaves. -/
theorem stored_target (checkpoint : Checkpoint) :
    (c.stored checkpoint).target = c.target ∨
      (c.stored checkpoint).target = c.target.storeCheckpoint checkpoint := by
  unfold stored
  split
  · exact Or.inl rfl
  · split
    · exact Or.inl rfl
    · exact Or.inr rfl

/-- Saving the checkpoint of an event keeps the state sound and the view as it is. -/
theorem saved_sound (event : BinlogEvent) (h : m.Sound) (resume : Option BinlogCoordinate) :
    (m.saved event resume).Sound ∧
      (m.saved event resume).target.view.work = m.target.view.work := by
  have hvalid := saved_valid event h.valid resume
  cases resume with
  | none => exact ⟨h, rfl⟩
  | some coordinate =>
    cases hopen : m.targetTransaction.isOpen with
    | true =>
      simp only [saved, hopen, if_true] at hvalid ⊢
      exact ⟨⟨hvalid, h.onlyWork, fun hclosed => h.closed hclosed⟩, trivial⟩
    | false =>
      simp only [saved, hopen, Bool.false_eq_true, if_false] at hvalid ⊢
      have hclosed := h.closed hopen
      rcases stored_target (c := m) (coordinateCheckpoint coordinate (eventName event)) with
        htarget | htarget
      · rw [htarget]
        exact ⟨⟨hvalid, h.onlyWork, fun _ => hclosed⟩, rfl⟩
      · rw [htarget]
        exact ⟨⟨hvalid, Target.onlyWork_of_none hclosed, fun _ => hclosed⟩, rfl⟩

/-- After the checkpoint of an event the pending one is that of the event or the one before. -/
theorem saved_pending (m : StreamCore) (event : BinlogEvent) (resume : Option BinlogCoordinate) :
    (m.saved event resume).pending = m.pending ∨
      (m.saved event resume).pending = resume.map fun coordinate =>
        coordinateCheckpoint coordinate (eventName event) := by
  unfold saved pending
  cases resume with
  | none => exact Or.inl rfl
  | some coordinate =>
    dsimp only
    split
    · exact Or.inr rfl
    · rw [stored_targetTransaction]
      exact Or.inl rfl

/-- Without an open transaction everything is durable. -/
theorem Sound.db_work (h : m.Sound) (hclosed : m.targetTransaction.isOpen = false) :
    m.target.db.work = m.target.view.work := by
  rw [Target.view_of_none (h.closed hclosed)]

/-- Saving the checkpoint of an event makes it durable only with the work of the event. -/
theorem Advanced.savedScript (h : c.Advanced work m) {resume : Option BinlogCoordinate}
    {x : TraceEntry} (hx : x ∈ m.savedScript event resume) :
    c.Within work (resume.map fun coordinate => coordinateCheckpoint coordinate (eventName event))
      x.after.db := by
  unfold StreamCore.savedScript at hx
  cases resume with
  | none => cases hx
  | some coordinate =>
    dsimp only at hx
    split at hx
    · cases hx
    · next hclosed =>
      obtain ⟨hwork, hcheckpoint⟩ := storeScript_durable hx
      have hall := h.sound.db_work (by simpa using hclosed)
      rcases hcheckpoint with hold | hnew
      · simpa using h.within [] (Or.inl hwork) (Or.inl hold)
      · refine ⟨?_, ?_, Or.inr (Or.inr ⟨_, rfl, hnew, ?_⟩)⟩
        · rw [hwork]
          exact h.durable
        · rw [hwork, hall, h.view]
        · rw [hwork, hall, h.view]

/-- The end of a source transaction makes its checkpoint durable only with its work. -/
theorem Advanced.finishScript (h : c.Advanced work m) {resume : Option BinlogCoordinate}
    {now : Nat} {x : TraceEntry} (hx : x ∈ m.finishScript config event resume now) :
    c.Within work (resume.map fun coordinate => coordinateCheckpoint coordinate (eventName event))
      x.after.db := by
  rcases List.mem_append.mp hx with hx | hx
  · exact h.counted.savedScript hx
  · split at hx
    · obtain ⟨hsound, hview⟩ := saved_sound event h.counted.sound resume
      obtain ⟨hwork, hcheckpoint⟩ := commitScript_durable hsound.onlyWork hx
      -- Before the commit the durable contents are those of a direct store or of the handlers.
      have hstored : c.Within work
          (resume.map fun coordinate => coordinateCheckpoint coordinate (eventName event))
          (m.counted.saved event resume).target.db := by
        unfold saved
        cases resume with
        | none => simpa using h.counted.within [] (Or.inl rfl) (Or.inl rfl)
        | some coordinate =>
          dsimp only
          split
          · simpa using h.counted.within [] (Or.inl rfl) (Or.inl rfl)
          · next hclosed =>
            have hall := h.counted.sound.db_work (by simpa using hclosed)
            rcases stored_target (c := m.counted)
              (coordinateCheckpoint coordinate (eventName event)) with htarget | htarget
            · rw [htarget]
              simpa using h.counted.within [] (Or.inl rfl) (Or.inl rfl)
            · rw [htarget]
              refine ⟨h.counted.durable, ?_, Or.inr (Or.inr ⟨_, rfl, rfl, ?_⟩)⟩
              · rw [Target.storeCheckpoint_db_work, hall, h.counted.view]
              · rw [Target.storeCheckpoint_db_work, hall, h.counted.view]
      have hall : (m.counted.saved event resume).target.view.work = c.target.view.work ++ work := by
        rw [hview, h.counted.view]
      have hbefore : c.target.view.work <+: c.target.view.work ++ work := List.prefix_append _ _
      refine ⟨?_, ?_, ?_⟩
      · rcases hwork with hwork | hwork
        · rw [hwork]
          exact hstored.durable
        · exact Or.inr (by rw [hwork, hall]; exact hbefore)
      · rcases hwork with hwork | hwork
        · rw [hwork]
          exact hstored.bound
        · rw [hwork, hall]
      · rcases hcheckpoint with hold | ⟨checkpoint, hpending, hnew, hcommit⟩
        · rcases hstored.checkpoint with hstored | ⟨p, hp, hstored, hdurable⟩ |
            ⟨p, hp, hstored, hdurable⟩
          · exact Or.inl (hold.trans hstored)
          · refine Or.inr (Or.inl ⟨p, hp, hold.trans hstored, ?_⟩)
            rcases hwork with hwork | hwork
            · rwa [hwork]
            · rw [hwork, hall]
              exact hbefore
          · refine Or.inr (Or.inr ⟨p, hp, hold.trans hstored, ?_⟩)
            rcases hwork with hwork | hwork
            · rwa [hwork]
            · rw [hwork, hall]
        · rw [hall] at hcommit
          rcases saved_pending m.counted event resume with hsame | hnext
          · rcases h.counted.pending with hc | hnone
            · refine Or.inr (Or.inl ⟨checkpoint, ?_, hnew, hcommit ▸ hbefore⟩)
              rw [← hc, ← hsame, hpending]
            · rw [hsame, hnone] at hpending
              cases hpending
          · exact Or.inr (Or.inr ⟨checkpoint, hnext ▸ hpending, hnew,
              hcommit ▸ List.prefix_refl _⟩)
    · cases hx

/-- The end of a source transaction keeps the state sound and the view as it is. -/
theorem finished_sound (config : TargetTransactionGroupConfig) (event : BinlogEvent)
    (h : m.Sound) (resume : Option BinlogCoordinate) (now : Nat) :
    (m.finished config event resume now).Sound ∧
      (m.finished config event resume now).target.view.work = m.target.view.work := by
  have hcounted := (Advanced.refl h).counted
  obtain ⟨hsound, hview⟩ := saved_sound event hcounted.sound resume
  unfold finished
  dsimp only
  split
  · exact ⟨committed_sound, committed_view_work.trans hview⟩
  · exact ⟨hsound, hview⟩

/-! ## The whole event -/

/-- While an event is handled, the durable contents stay within its bounds. -/
theorem eventScript_within (h : c.Sound) {now : Readings} {x : TraceEntry}
    (hx : x ∈ c.eventScript codec config header event now) :
    c.Within (c.reader.work codec header event) (c.nextCheckpoint header event) x.after.db := by
  have hready := ready_advanced config event h now
  have hhandled := hready.handled codec header event
  simp only [ready_reader] at hhandled
  rcases List.mem_append.mp hx with hx | hx
  · rcases List.mem_append.mp hx with hx | hx
    · -- The commit before the event.
      split at hx
      · exact flushScript_within h hx
      · cases hx
    · -- The beginning of a transaction.
      have hsettled := settled_advanced config event h now.before
      split at hx
      · unfold beginScript at hx
        split at hx
        · cases hx
        · cases List.mem_singleton.mp hx
          refine hsettled.within _ (Or.inr rfl) (Or.inl ?_)
          exact hsettled.sound.onlyWork.view_checkpoint
      · cases hx
  · rcases List.mem_append.mp hx with hx | hx
    · -- The handlers.
      rcases List.mem_append.mp hx with hx | hx
      · have hafter : x.after.db = (c.ready config event now).target.db := by
          unfold contextScript at hx
          split at hx
          · split at hx
            · obtain ⟨intvar, -, rfl⟩ := List.mem_map.mp hx
              rfl
            · cases hx
          · cases hx
        rw [hafter]
        exact hready.within _ (Or.inl rfl) (Or.inl rfl)
      · obtain ⟨hdurable, hbound, hcheckpoint⟩ := workScript_durable hready.sound.onlyWork hx
        have hview : (c.ready config event now).target.view.work = c.target.view.work := by
          simpa using hready.view
        rw [hview, ready_reader] at hbound
        rw [hview] at hdurable
        refine ⟨?_, hbound, ?_⟩
        · rcases hdurable with hdurable | hdurable
          · rw [hdurable]
            exact hready.durable
          · exact Or.inr hdurable
        · rcases hready.checkpoint with hold | ⟨p, hp, hsaved, hbefore⟩
          · exact Or.inl (hcheckpoint.trans hold)
          · refine Or.inr (Or.inl ⟨p, hp, hcheckpoint.trans hsaved, ?_⟩)
            rcases hdurable with hdurable | hdurable
            · rwa [hdurable]
            · exact hdurable
    · -- The stages after the handlers.
      unfold closeScript at hx
      simp only [ready_reader] at hx
      split at hx
      · exact hhandled.finishScript hx
      · exact hhandled.savedScript hx

/-- After an event the state is sound and the view has the event's work. -/
theorem applied_sound (h : c.Sound) (now : Readings) :
    (c.applied codec config header event now).Sound ∧
      (c.applied codec config header event now).target.view.work =
        c.target.view.work ++ c.reader.work codec header event := by
  have hready := ready_advanced config event h now
  have hhandled := hready.handled codec header event
  simp only [ready_reader] at hhandled
  unfold applied closed
  simp only [ready_reader]
  split
  · obtain ⟨hsound, hview⟩ := finished_sound config event hhandled.sound
      (c.reader.resume header event) now.after
    exact ⟨hsound, hview.trans hhandled.view⟩
  · obtain ⟨hsound, hview⟩ := saved_sound event hhandled.sound
      (c.reader.resume header event)
    exact ⟨hsound, hview.trans hhandled.view⟩

/-- After an event the pending checkpoint is gone, the one before or the event's own. -/
theorem applied_pending (h : c.Sound) (now : Readings) :
    (c.applied codec config header event now).pending = none ∨
      (c.applied codec config header event now).pending = c.pending ∨
      (c.applied codec config header event now).pending = c.nextCheckpoint header event := by
  have hready := ready_advanced config event h now
  have hhandled := hready.handled codec header event
  simp only [ready_reader] at hhandled
  have hsaved : ∀ m, c.Advanced (c.reader.work codec header event) m →
      (m.saved event (c.reader.resume header event)).pending = none ∨
        (m.saved event (c.reader.resume header event)).pending = c.pending ∨
        (m.saved event (c.reader.resume header event)).pending = c.nextCheckpoint header event := by
    intro m hm
    rcases saved_pending m event (c.reader.resume header event) with hsame | hnext
    · rw [hsame]
      exact hm.pending.elim (fun h => Or.inr (Or.inl h)) Or.inl
    · exact Or.inr (Or.inr hnext)
  unfold applied closed
  simp only [ready_reader]
  split
  · unfold finished
    dsimp only
    split
    · exact Or.inl rfl
    · exact hsaved _ hhandled.counted
  · exact hsaved _ hhandled

/-- After an event the reader has read it. -/
theorem applied_reader (now : Readings) :
    (c.applied codec config header event now).reader = c.reader.next codec header event := by
  have hsaved : ∀ m : StreamCore, (m.saved event (c.reader.resume header event)).reader =
      { m.reader with currentFile := ((c.reader.resume header event).map
          BinlogCoordinate.file).getD m.currentFile } := by
    intro m
    unfold saved
    cases c.reader.resume header event with
    | none => rfl
    | some coordinate =>
      dsimp only
      split
      · rfl
      · unfold stored
        split
        · rfl
        · split <;> rfl
  have hhandled : ((c.ready config event now).handled codec header event).reader =
      ⟨c.currentFile, (c.reader.handled codec header event).state,
        (c.reader.handled codec header event).registry⟩ := by
    have hready : (c.ready config event now).reader = c.reader := ready_reader now
    have hfile : (c.ready config event now).currentFile = c.currentFile :=
      congrArg Reader.currentFile hready
    rw [← hready, ← hfile]
    rfl
  have hnext : ∀ m : StreamCore, m.reader = ⟨c.currentFile,
        (c.reader.handled codec header event).state,
        (c.reader.handled codec header event).registry⟩ →
      (m.saved event (c.reader.resume header event)).reader = c.reader.next codec header event := by
    intro m hm
    have hfile : m.currentFile = c.currentFile := congrArg Reader.currentFile hm
    rw [hsaved, hm, hfile]
    rfl
  unfold applied closed
  simp only [ready_reader]
  split
  · unfold finished
    dsimp only
    split
    · exact hnext _ hhandled
    · exact hnext _ hhandled
  · exact hnext _ hhandled

end StreamCore

end BinlogCdc
