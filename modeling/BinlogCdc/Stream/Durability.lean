import BinlogCdc.Stream.Dispatch

/-!
# The durable checkpoint and the durable work

Wherever a stream attempt stops, the durable checkpoint is the one it started from or the
end of an event it handled, and then the work of that event and of every event before it
is durable. With a source that sends its events in binlog order, everything located before
the checkpoint is on the target.
-/

namespace BinlogCdc

section Coverage

variable (semantics : DdlSemantics) (codec : RowCodec) (base : TargetDb) (origin : Reader)

/-- The checkpoint is the end of one of the events. -/
def EndsEvent (inputs : List SourceStreamEvent) (checkpoint : Checkpoint) : Prop :=
  ∃ before input rest, inputs = before ++ input :: rest ∧
    checkpoint.coordinate = (origin.dispatchAll semantics codec before).endOf input

/-- The durable checkpoint is the one the attempt started from, or the end of an event whose
work is durable together with the work of all events before it. -/
def CheckpointCovered (inputs : List SourceStreamEvent) (db : TargetDb) : Prop :=
  (db.checkpoint = base.checkpoint ∧ base.work <+: db.work) ∨
    ∃ before input rest checkpoint, inputs = before ++ input :: rest ∧
      db.checkpoint = some checkpoint ∧
      checkpoint.coordinate = (origin.dispatchAll semantics codec before).endOf input ∧
      base.work ++ origin.dispatchWorks semantics codec (before ++ [input]) <+: db.work

/-- What holds after some events of a stream attempt. -/
structure Followed (handled : List SourceStreamEvent) (c : StreamCore) : Prop where
  /-- The state is sound. -/
  sound : c.Sound
  /-- The events were read. -/
  reader : c.reader = origin.dispatchAll semantics codec handled
  /-- The view has the work of the events. -/
  view : c.target.view.work = base.work ++ origin.dispatchWorks semantics codec handled
  /-- The durable checkpoint is covered. -/
  covered : CheckpointCovered semantics codec base origin handled c.target.db
  /-- A pending checkpoint is the end of an event. -/
  pending : ∀ checkpoint, c.pending = some checkpoint →
    EndsEvent semantics codec origin handled checkpoint

/-- The source sends its events in order: none starts before the checkpoint the attempt started
from, and none starts before the end of an earlier one. -/
structure SentInOrder (lt : BinlogCoordinate → BinlogCoordinate → Prop)
    (inputs : List SourceStreamEvent) : Prop where
  /-- Nothing is sent again from before the checkpoint. -/
  checkpoint : ∀ before input rest checkpoint, inputs = before ++ input :: rest →
    base.checkpoint = some checkpoint →
    ¬lt ((origin.dispatchAll semantics codec before).startOf input) checkpoint.coordinate
  /-- Every event comes after the earlier ones. -/
  event : ∀ before earlier between input rest,
    inputs = before ++ earlier :: (between ++ input :: rest) →
    ¬lt ((origin.dispatchAll semantics codec (before ++ earlier :: between)).startOf input)
      ((origin.dispatchAll semantics codec before).endOf earlier)

/-- Every event located before the durable checkpoint has its work on the target, and so have
the events before it. -/
def LocatedWorkDurable (lt : BinlogCoordinate → BinlogCoordinate → Prop)
    (inputs : List SourceStreamEvent) (db : TargetDb) : Prop :=
  ∀ before input rest checkpoint, inputs = before ++ input :: rest →
    db.checkpoint = some checkpoint →
    lt ((origin.dispatchAll semantics codec before).startOf input) checkpoint.coordinate →
    base.work ++ origin.dispatchWorks semantics codec (before ++ [input]) <+: db.work

variable {semantics codec base origin}

theorem EndsEvent.append {inputs : List SourceStreamEvent} {checkpoint : Checkpoint}
    (h : EndsEvent semantics codec origin inputs checkpoint) (more : List SourceStreamEvent) :
    EndsEvent semantics codec origin (inputs ++ more) checkpoint := by
  obtain ⟨before, input, rest, rfl, hend⟩ := h
  exact ⟨before, input, rest ++ more, by simp, hend⟩

theorem CheckpointCovered.append {inputs : List SourceStreamEvent} {db : TargetDb}
    (h : CheckpointCovered semantics codec base origin inputs db)
    (more : List SourceStreamEvent) :
    CheckpointCovered semantics codec base origin (inputs ++ more) db := by
  rcases h with h | ⟨before, input, rest, checkpoint, rfl, hrest⟩
  · exact Or.inl h
  · exact Or.inr ⟨before, input, rest ++ more, checkpoint, by simp, hrest⟩

/-- A covered checkpoint stays covered when the work only grows. -/
theorem CheckpointCovered.mono {inputs : List SourceStreamEvent} {db db' : TargetDb}
    (h : CheckpointCovered semantics codec base origin inputs db)
    (hcheckpoint : db'.checkpoint = db.checkpoint) (hwork : db.work <+: db'.work) :
    CheckpointCovered semantics codec base origin inputs db' := by
  rcases h with ⟨hsame, hbase⟩ | ⟨before, input, rest, checkpoint, hinputs, hsaved, hend, hdone⟩
  · exact Or.inl ⟨hcheckpoint.trans hsame, hbase.trans hwork⟩
  · exact Or.inr ⟨before, input, rest, checkpoint, hinputs, hcheckpoint.trans hsaved, hend,
      hdone.trans hwork⟩

/-- The end of an event is covered when the work of all events is durable. -/
theorem EndsEvent.covered {inputs : List SourceStreamEvent} {checkpoint : Checkpoint}
    (h : EndsEvent semantics codec origin inputs checkpoint) {db : TargetDb}
    (hcheckpoint : db.checkpoint = some checkpoint)
    (hwork : base.work ++ origin.dispatchWorks semantics codec inputs <+: db.work) :
    CheckpointCovered semantics codec base origin inputs db := by
  obtain ⟨before, input, rest, rfl, hend⟩ := h
  refine Or.inr ⟨before, input, rest, checkpoint, rfl, hcheckpoint, hend, ?_⟩
  refine List.IsPrefix.trans ?_ hwork
  rw [List.append_cons before input rest, Reader.dispatchWorks_append _ rest]
  exact List.prefix_append_right_inj _ |>.mpr (List.prefix_append _ _)

/-- Whatever is durable while an event is handled, the checkpoint is covered. -/
theorem Followed.covered_within {handled : List SourceStreamEvent} {c : StreamCore}
    (h : Followed semantics codec base origin handled c) {config : StreamConfig}
    {input : SourceStreamEvent} {db : TargetDb}
    (hwithin : c.Within (c.reader.dispatchWork semantics codec input)
      (c.dispatchCheckpoint semantics config input) db) :
    CheckpointCovered semantics codec base origin (handled ++ [input]) db := by
  rcases hwithin.checkpoint with hsame | ⟨checkpoint, hpending, hsaved, hwork⟩ |
    ⟨checkpoint, hnext, hsaved, hwork⟩
  · have hgrown : c.target.db.work <+: db.work := by
      rcases hwithin.durable with hdurable | hdurable
      · exact hdurable ▸ List.prefix_refl _
      · exact c.target.work_prefix_view.trans hdurable
    exact (h.covered.mono hsame hgrown).append [input]
  · rw [h.view] at hwork
    exact ((h.pending checkpoint hpending).covered hsaved hwork).append [input]
  · have hend := StreamCore.dispatchCheckpoint_coordinate hnext
    rw [h.reader] at hend hwork
    refine Or.inr ⟨handled, input, [], checkpoint, rfl, hsaved, hend, ?_⟩
    simpa [h.view] using hwork

/-- One more event keeps the invariant. -/
theorem Followed.step {handled : List SourceStreamEvent} {c c' : StreamCore}
    (h : Followed semantics codec base origin handled c) {config : StreamConfig}
    {input : SourceStreamEvent} (hconsumed : Consumed semantics codec config input c c') :
    Followed semantics codec base origin (handled ++ [input]) c' := by
  refine ⟨hconsumed.sound, ?_, ?_, h.covered_within hconsumed.within, ?_⟩
  · rw [hconsumed.reader, h.reader, Reader.dispatchAll_append]
    rfl
  · rw [hconsumed.view, h.view, h.reader]
    simp
  · intro checkpoint hpending
    rcases hconsumed.pending with hnone | hsame | hnext
    · rw [hnone] at hpending
      cases hpending
    · exact (h.pending checkpoint (hsame ▸ hpending)).append [input]
    · have hend := StreamCore.dispatchCheckpoint_coordinate (hnext ▸ hpending)
      rw [h.reader] at hend
      exact ⟨handled, input, [], rfl, hend⟩

/-- A new attempt has followed no event. -/
theorem followed_attempt (semantics : DdlSemantics) (codec : RowCodec) (db : TargetDb)
    (lastCheckpoint : Option Checkpoint) (sourceDatabase : Option String) (currentFile : String) :
    Followed semantics codec db
      (Runtime.attempt db lastCheckpoint sourceDatabase currentFile).core.reader []
      (Runtime.attempt db lastCheckpoint sourceDatabase currentFile).core := by
  refine ⟨Runtime.attempt_sound .., rfl, ?_, Or.inl ⟨rfl, List.prefix_refl _⟩, ?_⟩
  · simp
  · intro checkpoint hpending
    cases hpending

/-- With events in order, a covered checkpoint has everything located before it on the target. -/
theorem CheckpointCovered.locatedWorkDurable {lt : BinlogCoordinate → BinlogCoordinate → Prop}
    {inputs : List SourceStreamEvent} {db : TargetDb}
    (h : CheckpointCovered semantics codec base origin inputs db)
    (horder : SentInOrder semantics codec base origin lt inputs) :
    LocatedWorkDurable semantics codec base origin lt inputs db := by
  intro before input rest checkpoint hinputs hcheckpoint hlt
  rcases h with ⟨hsame, -⟩ | ⟨done, last, more, saved, hdone, hsaved, hend, hwork⟩
  · exact absurd hlt (horder.checkpoint before input rest checkpoint hinputs
      (hsame ▸ hcheckpoint))
  · obtain rfl : saved = checkpoint := Option.some.inj (hsaved.symm.trans hcheckpoint)
    -- The event is among the ones up to the checkpoint, or it was sent after its end.
    have hsplit : before ++ [input] <+: done ++ [last] ∨
        ∃ between, before = done ++ last :: between := by
      have hinput : before ++ [input] <+: inputs := ⟨rest, by simp [hinputs]⟩
      have hlast : done ++ [last] <+: inputs := ⟨more, by simp [hdone]⟩
      rcases List.prefix_or_prefix_of_prefix hinput hlast with hbefore | hafter
      · exact Or.inl hbefore
      · rcases List.prefix_concat_iff.mp hafter with hsame | ⟨between, rfl⟩
        · exact Or.inl (hsame ▸ List.prefix_refl _)
        · exact Or.inr ⟨between, by simp⟩
    rcases hsplit with ⟨between, hbetween⟩ | ⟨between, rfl⟩
    · refine List.IsPrefix.trans ?_ hwork
      rw [← hbetween, Reader.dispatchWorks_append (before ++ [input]) between]
      exact (List.prefix_append_right_inj _).mpr (List.prefix_append _ _)
    · rw [hend] at hlt
      exact absurd hlt (horder.event done last between input rest (by simpa using hinputs))

end Coverage

section Runs

variable {world : World} {config : StreamConfig} {table name : String} {base : TargetDb}
  {s s' : Runtime}

/-- A run follows its events one by one, and wherever it stops the checkpoint is covered. -/
theorem wp_streamEvents_followed (hmode : config.checkpoint = .targetTable table name)
    (h : Followed world.semantics world.codec base s.core.reader [] s.core)
    (inputs : List SourceStreamEvent) :
    Prog.wp (streamEvents world config inputs)
      (fun _ s' => Followed world.semantics world.codec base s.core.reader inputs s'.core)
      (fun _ s' => CheckpointCovered world.semantics world.codec base s.core.reader inputs
        s'.target.db) s := by
  refine Prog.wp_forEach (fun handled s' =>
    Followed world.semantics world.codec base s.core.reader handled s'.core) inputs
    (processStreamEvent world config) ?_ h
  rintro handled input rest s' rfl hfollowed
  refine Prog.wp_mono (wp_processStreamEvent_ledger hmode hfollowed.sound input) ?_ ?_
  · intro _ s'' hconsumed
    exact hfollowed.step hconsumed
  · intro _ s'' hwithin
    have hcovered := (hfollowed.covered_within hwithin).append rest
    simpa using hcovered

/-- Wherever a stream attempt stops, its durable checkpoint is covered. -/
theorem streamEvents_covered (hmode : config.checkpoint = .targetTable table name)
    (h : Followed world.semantics world.codec base s.core.reader [] s.core)
    (inputs : List SourceStreamEvent) :
    CheckpointCovered world.semantics world.codec base s.core.reader inputs
      (streamEvents world config inputs s).2.target.db := by
  refine Prog.wp_final (R := fun s' =>
    CheckpointCovered world.semantics world.codec base s.core.reader inputs s'.target.db)
    (Prog.wp_mono (wp_streamEvents_followed hmode h inputs) ?_ fun _ _ h => h)
  intro _ s' hfollowed
  exact hfollowed.covered

/-- The state after a run has followed its events. -/
theorem followed_of_reaches (hmode : config.checkpoint = .targetTable table name)
    (h : Followed world.semantics world.codec base s.core.reader [] s.core)
    {inputs : List SourceStreamEvent} (hreaches : (streamEvents world config inputs).Reaches s s') :
    Followed world.semantics world.codec base s.core.reader inputs s'.core := by
  have hfollowed := Prog.wp_value (wp_streamEvents_followed hmode h inputs) hreaches
  exact hfollowed

end Runs

/-- In target-table mode the durable checkpoint is never ahead of uncommitted work: wherever the
attempt stops, the work of every event up to the checkpoint is durable, and with events sent in
order this is the work of every event located before it. -/
theorem checkpoint_never_ahead_of_work (world : World) (sourceIdentity table name : String)
    (groupConfig : TargetTransactionGroupConfig) (db : TargetDb)
    (lastCheckpoint : Option Checkpoint) (sourceDatabase : Option String) (currentFile : String)
    (inputs : List SourceStreamEvent) :
    let s := Runtime.attempt db lastCheckpoint sourceDatabase currentFile
    let reached := (streamEvents world ⟨sourceIdentity, groupConfig, .targetTable table name⟩
      inputs s).2
    CheckpointCovered world.semantics world.codec db s.core.reader inputs reached.target.db ∧
      ∀ lt, SentInOrder world.semantics world.codec db s.core.reader lt inputs →
        LocatedWorkDurable world.semantics world.codec db s.core.reader lt inputs
          reached.target.db := by
  intro s reached
  have hmode : (StreamConfig.mk sourceIdentity groupConfig (.targetTable table name)).checkpoint =
      .targetTable table name := rfl
  have hcovered : CheckpointCovered world.semantics world.codec db s.core.reader inputs
      reached.target.db :=
    streamEvents_covered hmode (followed_attempt ..) inputs
  exact ⟨hcovered, fun lt horder => hcovered.locatedWorkDurable horder⟩

/-- The events of one binlog file are in order when each starts where the ones before it have
ended. -/
theorem sentInOrder_of_pairwise {semantics : DdlSemantics} {codec : RowCodec} {base : TargetDb}
    {origin : Reader} {inputs : List SourceStreamEvent}
    (hcheckpoint : ∀ checkpoint, base.checkpoint = some checkpoint →
      ∀ input ∈ inputs, checkpoint.coordinate.position ≤ input.sourcePosition)
    (hrotate : ∀ input ∈ inputs, input.event.isRotate = false)
    (hpairwise : inputs.Pairwise fun a b => a.header.nextEventPosition ≤ b.sourcePosition) :
    SentInOrder semantics codec base origin (fun a b => a.position < b.position) inputs := by
  constructor
  · rintro before input rest checkpoint rfl hbase
    exact Nat.not_lt.mpr (hcheckpoint checkpoint hbase input (by simp))
  · rintro before earlier between input rest rfl
    have hend : ((origin.dispatchAll semantics codec before).endOf earlier).position =
        earlier.header.nextEventPosition := by
      have hnot := hrotate earlier (by simp)
      unfold Reader.endOf
      cases hevent : earlier.event with
      | rotate file position => simp [hevent, BinlogEvent.isRotate] at hnot
      | _ => rfl
    have hle : earlier.header.nextEventPosition ≤ input.sourcePosition :=
      (List.pairwise_cons.mp (List.pairwise_append.mp hpairwise).2.1).1 input (by simp)
    rw [hend]
    exact Nat.not_lt.mpr hle

/-- A world in which the process dies at a tick. -/
def crashingWorld (last : Nat) : World :=
  { quietWorld fun _ => 0 with outcome := fun tick => if tick < last then .done else .crashed }

/-- Two transactions of one row. -/
def interruptedEvents : List SourceStreamEvent :=
  [tableMapAt 20, insertAt 30 1, eventAt 40 (.xid 1), tableMapAt 50, insertAt 60 2,
    eventAt 70 (.xid 2)]

/-- The process dies when the second transaction is to be committed: the checkpoint is the end of the first
transaction, and what lies before it is durable. -/
theorem checkpoint_never_ahead_of_interrupted_work :
    let s := Runtime.attempt freshDb none (some "app") "bin.000001"
    let reached := (streamEvents (crashingWorld 16)
      ⟨"source", ⟨1, 0⟩, .targetTable "cdc" "stream"⟩ interruptedEvents s).2
    reached.target.db.checkpoint =
        some (coordinateCheckpoint ⟨"bin.000001", 40⟩ "XidEvent") ∧
      reached.target.view.work.length = 2 ∧
      LocatedWorkDurable (crashingWorld 16).semantics idCodec freshDb s.core.reader
        (fun a b => a.position < b.position) interruptedEvents reached.target.db := by
  refine ⟨by decide +kernel, by decide +kernel, ?_⟩
  refine (checkpoint_never_ahead_of_work _ _ _ _ _ _ _ _ _ _).2 _
    (sentInOrder_of_pairwise ?_ ?_ ?_)
  · rintro checkpoint hcheckpoint input hinput
    obtain rfl := Option.some.inj hcheckpoint
    revert input
    decide
  · decide
  · decide

end BinlogCdc
