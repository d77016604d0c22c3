import BinlogCdc.Sql.Head
import BinlogCdc.Stream.Durability

/-!
# Which queries the stream lets through

A query event is DDL for the translator, DDL for an operator, or it goes to the handler of
query events, which replays, skips, refuses or ignores it. Here these decisions are compared
with what the server does with the text: a schema change must not be replayed as it is, and
a data change of the source schema must not be ignored.
-/

namespace BinlogCdc

/-! ## Schema changes -/

/-- The operation replays a statement of the source. -/
def TargetOp.IsReplay : TargetOp → Prop
  | .replay _ _ => True
  | _ => False

section Unreplayed

variable {s s' : Runtime}

/-- No statement was replayed between two states. -/
def Unreplayed (s s' : Runtime) : Prop :=
  ∃ issued, s'.trace = s.trace ++ issued ∧ ∀ x ∈ issued, ¬x.op.IsReplay

theorem Unreplayed.trans {s'' : Runtime} (h : Unreplayed s s') (h' : Unreplayed s' s'') :
    Unreplayed s s'' := by
  obtain ⟨issued, htrace, hissued⟩ := h
  obtain ⟨more, hmoreTrace, hmore⟩ := h'
  refine ⟨issued ++ more, by rw [hmoreTrace, htrace, List.append_assoc], ?_⟩
  intro x hx
  rcases List.mem_append.mp hx with hx | hx
  · exact hissued x hx
  · exact hmore x hx

/-- A flush replays nothing. -/
theorem StreamCore.not_isReplay_of_mem_flushScript {c : StreamCore} {x : TraceEntry}
    (hx : x ∈ c.flushScript) : ¬x.op.IsReplay := by
  unfold flushScript at hx
  split at hx
  · unfold commitScript saveScript at hx
    cases hpending : c.pending with
    | none =>
      rw [hpending] at hx
      obtain rfl := List.mem_singleton.mp hx
      exact not_false
    | some checkpoint =>
      rw [hpending] at hx
      simp only [List.cons_append, List.nil_append, List.mem_cons, List.not_mem_nil, or_false] at hx
      rcases hx with rfl | rfl | rfl <;> exact not_false
  · cases hx

theorem Performed.unreplayed (h : Performed s s.core.flushScript s') : Unreplayed s s' :=
  ⟨_, h.trace, fun _ hx => StreamCore.not_isReplay_of_mem_flushScript hx⟩

theorem Stopped.unreplayed (h : Stopped s s.core.flushScript s') : Unreplayed s s' := by
  obtain ⟨issued, htrace, hissued⟩ := h.trace
  refine ⟨issued, htrace, fun x hx => ?_⟩
  rcases hissued x hx with hx | ⟨hop, -⟩
  · exact StreamCore.not_isReplay_of_mem_flushScript hx
  · rw [hop]
    exact not_false

/-- No operation of the DDL handler replays a statement of the source. -/
theorem DdlAction.not_isReplay {semantics : DdlSemantics} {entry : Option TargetChanges}
    {event : DdlEvent} {committing : Bool} {target target' : Target} {trace : List TraceEntry}
    {op : TargetOp} (haction : DdlAction semantics entry event committing target trace op target') :
    ¬op.IsReplay := by
  cases haction with
  | look hop =>
    intro hreplay
    cases op with
    | replay => exact hop
    | _ => exact hreplay
  | _ => exact not_false

theorem DdlRun.unreplayed {semantics : DdlSemantics} {entry : Option TargetChanges}
    {event : DdlEvent} {committing : Bool} (hrun : DdlRun semantics entry event committing s s') :
    Unreplayed s s' := by
  induction hrun with
  | refl => exact ⟨[], by simp, by simp⟩
  | tail _ step ih =>
    refine ih.trans ?_
    cases step with
    | quiet _ htrace => exact ⟨[], by simpa using htrace, by simp⟩
    | act haction =>
      refine ⟨_, rfl, fun x hx => ?_⟩
      obtain rfl := List.mem_singleton.mp hx
      exact haction.not_isReplay
    | prepareAndExecute =>
      refine ⟨[_, _], by rw [Runtime.perform_trace, Runtime.perform_trace, List.append_assoc]; rfl,
        fun x hx => ?_⟩
      simp only [List.mem_cons, List.not_mem_nil, or_false] at hx
      rcases hx with rfl | rfl <;> exact not_false

end Unreplayed

/-- The stop is not a blocked DDL event. -/
def Stop.Unblocked : Stop ApplyBinlogError → Prop
  | .error (.ddlBlocked _) => False
  | _ => True

section Blocking

variable {world : World} {config : StreamConfig} {event : DdlEvent} {s : Runtime}

/-- The error of a target operation. -/
theorem Stop.unblocked_of_wrap {wrap : String → ApplyBinlogError} {stop : Stop ApplyBinlogError}
    (h : stop = .crash ∨ ∃ message, stop = .error (wrap message))
    (hwrap : ∀ message, Stop.Unblocked (.error (wrap message))) : stop.Unblocked := by
  rcases h with rfl | ⟨message, rfl⟩
  · trivial
  · exact hwrap message

theorem wp_transition_unblocked {op : TargetOp} {effect : Target → Target} :
    Prog.wp (transition world .target op effect) (fun _ _ => True)
      (fun stop _ => stop.Unblocked) s :=
  wp_operate_wrapped (fun _ _ _ => trivial) fun _ h => Stop.unblocked_of_wrap h fun _ => trivial

/-- Flushing does not stop with a blocked DDL event. -/
theorem wp_flushGroupedTransaction_unblocked :
    Prog.wp (flushGroupedTransaction world config) (fun _ _ => True)
      (fun stop _ => stop.Unblocked) s := by
  have hcommit : ∀ s, Prog.wp (commitIfOpen world) (fun _ _ => True)
      (fun stop _ => stop.Unblocked) s := by
    intro s
    simp only [commitIfOpen, finishIfOpen, Prog.wp_bind, Prog.wp_reads]
    split
    · rw [Prog.wp_bind]
      exact Prog.wp_mono wp_transition_unblocked (fun _ _ _ => trivial) fun _ _ h => h
    · trivial
  have hlock : ∀ name checkpoint s, Prog.wp (lockValidateAndSaveCheckpoint world name checkpoint)
      (fun _ _ => True) (fun stop _ => stop.Unblocked) s := by
    intro name checkpoint s
    unfold lockValidateAndSaveCheckpoint
    rw [Prog.wp_bind]
    refine wp_operate_wrapped ?_ fun _ h => Stop.unblocked_of_wrap h fun _ => trivial
    intro current target _
    cases current with
    | none => trivial
    | some current =>
      simp only [Prog.wp_bind, wp_decided]
      refine ⟨fun _ _ => wp_transition_unblocked, ?_⟩
      intro error herror
      unfold ensureCoordinateAdvances at herror
      dsimp only at herror
      split at herror
      · cases herror
        trivial
      · cases herror
  have hgroup : ∀ s, Prog.wp (commitTargetGroup world config) (fun _ _ => True)
      (fun stop _ => stop.Unblocked) s := by
    intro s
    simp only [commitTargetGroup, Prog.wp_bind, Prog.wp_reads, wp_updateTransaction]
    split
    · rw [Prog.wp_bind, Prog.wp_onError]
      refine Prog.wp_mono (hlock _ _ _) (fun _ s' _ => hcommit s') ?_
      intro stop s' hstop
      cases stop with
      | crash => exact hstop
      | error error => exact hstop
    · exact hcommit _
  simp only [flushGroupedTransaction, Prog.wp_bind, Prog.wp_reads]
  split
  · trivial
  · simp only [Prog.wp_bind, wp_updateTransaction, Prog.wp_onError]
    refine Prog.wp_mono (hgroup _) ?_ ?_
    · intro _ s' _
      cases s.targetTransaction.pendingFileCheckpoint with
      | none => trivial
      | some checkpoint =>
        dsimp only
        split
        · simp only [saveCheckpoint, Prog.wp_bind, Prog.wp_update]
          exact wp_operate_wrapped (fun _ _ _ => trivial) fun _ h =>
            Stop.unblocked_of_wrap h fun _ => trivial
        · trivial
    · intro stop s' hstop
      cases stop with
      | crash => exact hstop
      | error error => exact hstop

/-- An event without a translation always stops the stream, and if it is blocked it is recorded. -/
theorem wp_handleUntranslatedDdlEvent :
    Prog.wp (handleUntranslatedDdlEvent world config event) (fun _ _ => False)
      (fun stop s' => stop.Unblocked ∨ s'.target.db.journal.Holds event .translationPending) s := by
  unfold handleUntranslatedDdlEvent
  simp only [Prog.wp_bind, wp_stopWith]
  refine Prog.wp_mono wp_flushGroupedTransaction_unblocked ?_ fun _ _ h => Or.inl h
  intro _ s₁ _
  unfold ensureTranslationPending readStatus readJournal
  simp only [Prog.wp_bind, Prog.wp_pure]
  refine wp_operate_wrapped ?_ fun _ h => Or.inl (Stop.unblocked_of_wrap h fun _ => trivial)
  intro row target heffect
  cases hrow : s₁.target.db.journal.row event with
  | none =>
    rw [hrow] at heffect
    cases heffect
    simp only [Option.map_none]
    unfold recordTranslationPending insertJournal
    refine wp_operate_wrapped ?_ fun _ h => Or.inl (Stop.unblocked_of_wrap h fun _ => trivial)
    intro _ target heffect
    right
    simp only [Journal.insert, Runtime.perform_target, hrow] at heffect
    split at heffect
    · cases heffect
    · next journal hinsert =>
      split at hinsert
      · cases hinsert
        cases heffect
        exact ⟨pendingEvidence, Journal.row_put _ _ _ _⟩
      · cases hinsert
  | some found =>
    rw [hrow] at heffect
    dsimp only at heffect
    cases hvalid : validateJournalEventIdentity event found "status" with
    | error message =>
      rw [hvalid] at heffect
      cases heffect
    | ok =>
      rw [hvalid] at heffect
      cases heffect
      obtain ⟨other, evidence, status⟩ := found
      obtain rfl := event_eq_of_validate hrow hvalid
      cases status with
      | translationPending => exact Or.inr ⟨evidence, hrow⟩
      | _ => exact Or.inl trivial

end Blocking

/-- The event is handled as DDL: by the translator, or it stops the stream and is recorded for an
operator; its text is not replayed. -/
structure HandledAsDdl (world : World) (config : StreamConfig) (input : SourceStreamEvent)
    (query : QueryEvent) (s : Runtime) : Prop where
  /-- The event goes to the DDL handler. -/
  route : s.core.reader.routeOf world.semantics input = .automatic query ∨
    s.core.reader.routeOf world.semantics input = .manual query
  /-- Nothing is replayed. -/
  unreplayed : Unreplayed s (processStreamEvent world config input s).2
  /-- Without the translator the stream stops, and a blocked event is recorded. -/
  blocked : s.core.reader.routeOf world.semantics input = .manual query →
    (processStreamEvent world config input s).1.toBool = false ∧
    ∀ message, (processStreamEvent world config input s).1 = .error (.error (.ddlBlocked message)) →
      (processStreamEvent world config input s).2.target.db.journal.Holds
        (s.core.ddlEvent config input query) .translationPending

section Admission

variable {world : World} {config : StreamConfig} {table name : String} {s : Runtime}
  {input : SourceStreamEvent} {query : QueryEvent}

/-- A query on the source schema goes to the DDL handler exactly when the stream takes it for a
schema change or the translator accepts it. -/
theorem routeOf_ddl_iff (hevent : input.event = .query query)
    (hsource : s.state.shouldApplySchema query.databaseName = true) :
    (s.core.reader.routeOf world.semantics input = .automatic query ∨
      s.core.reader.routeOf world.semantics input = .manual query) ↔
      isSchemaChangingStatement query.sqlStatement.toList = true ∨
        handlesAutomatically world.semantics s.state query = true := by
  have hroute : s.core.reader.routeOf world.semantics input =
      if handlesAutomatically world.semantics s.state query then .automatic query
      else if needsManualDdl world.semantics s.state query then .manual query
      else .transactional := by
    simp only [Reader.routeOf, route, hevent]
    rfl
  have hmanual : needsManualDdl world.semantics s.state query =
      (isSchemaChangingStatement query.sqlStatement.toList &&
        !handlesAutomatically world.semantics s.state query) := by
    simp [needsManualDdl, hsource]
  rw [hroute, hmanual]
  cases handlesAutomatically world.semantics s.state query with
  | true => simp
  | false =>
    cases isSchemaChangingStatement query.sqlStatement.toList with
    | true => simp
    | false => simp

/-- A DDL event replays nothing. -/
theorem processStreamEvent_unreplayed (hmode : config.checkpoint = .targetTable table name)
    (hsound : s.core.Sound)
    (hroute : s.core.reader.routeOf world.semantics input ≠ .transactional) :
    Unreplayed s (processStreamEvent world config input s).2 := by
  refine Prog.wp_final (R := fun s' => Unreplayed s s') ?_
  refine wp_processStreamEvent hmode hsound ?_ ?_ ?_ ?_ ?_ ?_
  · intro now s' htransactional
    exact absurd htransactional hroute
  · intro now stop s' htransactional
    exact absurd htransactional hroute
  · intro stop s' _ hs'
    exact hs'.unreplayed
  · intro query s₁ s' _ hs₁ _ hrun _
    exact hs₁.unreplayed.trans hrun.unreplayed
  · intro query s₁ stop s' _ hs₁ _ hrun
    exact hs₁.unreplayed.trans hrun.unreplayed
  · intro query s₁ stop s' _ hs₁ _ hrun
    exact hs₁.unreplayed.trans hrun.unreplayed

/-- A DDL event without a translation stops the stream and is recorded if it is blocked. -/
theorem wp_processStreamEvent_manual (config : StreamConfig)
    (hroute : s.core.reader.routeOf world.semantics input = .manual query) :
    Prog.wp (processStreamEvent world config input) (fun _ _ => False)
      (fun stop s' => stop.Unblocked ∨
        s'.target.db.journal.Holds (s.core.ddlEvent config input query) .translationPending) s := by
  have hevent := event_of_routeOf (Or.inr hroute)
  have hdecisions : handlesAutomatically world.semantics
      (s.state.recordEventPosition input.sourcePosition) query = false ∧
      needsManualDdl world.semantics (s.state.recordEventPosition input.sourcePosition) query =
        true := by
    simp only [Reader.routeOf, route, hevent] at hroute
    split at hroute
    · cases hroute
    · next hauto =>
      split at hroute
      · next hmanual => exact ⟨Bool.eq_false_iff.mpr hauto, hmanual⟩
      · cases hroute
  unfold processStreamEvent dispatchDdlOrTransactionalEvent handleDdlEvent
  simp only [Prog.wp_bind, wp_updateState, Prog.wp_pure, hevent, Prog.wp_reads, id, hdecisions.1,
    hdecisions.2, Bool.false_eq_true, if_false, if_true]
  exact Prog.wp_mono wp_handleUntranslatedDdlEvent (fun _ _ h => h.elim) fun _ _ h => h

/-- What is handled as DDL. -/
theorem handledAsDdl_iff (world : World) (hmode : config.checkpoint = .targetTable table name)
    (hsound : s.core.Sound) (hevent : input.event = .query query)
    (hsource : s.state.shouldApplySchema query.databaseName = true) :
    HandledAsDdl world config input query s ↔
      isSchemaChangingStatement query.sqlStatement.toList = true ∨
        handlesAutomatically world.semantics s.state query = true := by
  rw [← routeOf_ddl_iff hevent hsource]
  refine ⟨fun h => h.route, fun hroute => ⟨hroute, ?_, ?_⟩⟩
  · refine processStreamEvent_unreplayed hmode hsound ?_
    rcases hroute with hroute | hroute
    · rw [hroute]
      nofun
    · rw [hroute]
      nofun
  · intro hmanual
    have hrun := wp_processStreamEvent_manual config hmanual
    unfold Prog.wp at hrun
    cases hresult : processStreamEvent world config input s with
    | mk result s' =>
      rw [hresult] at hrun
      cases result with
      | ok value => exact hrun.elim
      | error stop =>
        refine ⟨rfl, fun message hmessage => ?_⟩
        cases hmessage
        exact hrun.resolve_left not_false

end Admission

/-- A schema change of the source schema is handled as DDL exactly when the stream recognizes its
first word or the translator accepts it. With plain comments the first word is recognized exactly
when it is written in upper case and followed by whitespace. -/
theorem schema_change_handledAsDdl_iff (world : World) (sourceIdentity table name : String)
    (groupConfig : TargetTransactionGroupConfig) (db : TargetDb)
    (lastCheckpoint : Option Checkpoint) (sourceDatabase : Option String) (currentFile : String)
    (handled : List SourceStreamEvent) (s : Runtime)
    (hreaches : (streamEvents world ⟨sourceIdentity, groupConfig, .targetTable table name⟩
      handled).Reaches (.attempt db lastCheckpoint sourceDatabase currentFile) s)
    (input : SourceStreamEvent) (query : QueryEvent) (hevent : input.event = .query query)
    (hsource : s.state.shouldApplySchema query.databaseName = true) (statement : ServerStatement)
    (hsql : query.sqlStatement.toList = statement.sql) (hchanges : statement.ChangesSchema) :
    let config : StreamConfig := ⟨sourceIdentity, groupConfig, .targetTable table name⟩
    (HandledAsDdl world config input query s ↔
      isSchemaChangingStatement query.sqlStatement.toList = true ∨
        handlesAutomatically world.semantics s.state query = true) ∧
    (statement.PlainlyCommented → (HandledAsDdl world config input query s ↔
      (statement.verb = Text.toAsciiUppercase statement.verb ∧
          Text.isWhitespace statement.separator = true) ∨
        handlesAutomatically world.semantics s.state query = true)) := by
  intro config
  have hmode : config.checkpoint = .targetTable table name := rfl
  have hfollowed := followed_of_reaches hmode (followed_attempt world.semantics world.codec db
    lastCheckpoint sourceDatabase currentFile) hreaches
  have hiff := handledAsDdl_iff world hmode hfollowed.sound hevent hsource
  refine ⟨hiff, fun hplain => ?_⟩
  have hupper : statement.verb ∈ ServerStatement.schemaVerbs ↔
      statement.verb = Text.toAsciiUppercase statement.verb := by
    constructor
    · intro hverb
      have hfixed : ∀ word ∈ ServerStatement.schemaVerbs, word = Text.toAsciiUppercase word := by
        decide
      exact hfixed _ hverb
    · intro hverb
      rw [hverb]
      exact hchanges
  rw [hiff, hsql, ServerStatement.isSchemaChangingStatement_sql hplain, hupper]

/-- Every schema change of the source schema is handled as DDL. -/
def SchemaChangesHandledAsDdl : Prop :=
  ∀ (world : World) (config : StreamConfig) (table name : String) (s : Runtime)
    (input : SourceStreamEvent) (query : QueryEvent) (statement : ServerStatement),
    config.checkpoint = .targetTable table name → s.core.Sound → input.event = .query query →
    s.state.shouldApplySchema query.databaseName = true →
    query.sqlStatement.toList = statement.sql → statement.ChangesSchema →
    HandledAsDdl world config input query s

/-- A view is created by a statement in lower case. -/
def lowercaseCreateView : ServerStatement where
  skipped := []
  verb := "create".toList
  separator := ' '
  rest := "view v as select 1".toList
  skips := by simp
  letters := by decide
  nonempty := by decide
  separates := by decide
  continues := by decide

/-- The statement in lower case is replayed as it is. -/
theorem schema_change_replayed_in_lower_case : ¬SchemaChangesHandledAsDdl := by
  intro h
  have hhandled := h (quietWorld fun _ => 0) ⟨"source", ⟨1, 0⟩, .targetTable "cdc" "stream"⟩ "cdc"
    "stream" (.attempt freshDb none (some "app") "bin.000001")
    (queryAt 20 "create view v as select 1") ⟨[], "app", "create view v as select 1"⟩
    lowercaseCreateView rfl (Runtime.attempt_sound ..) rfl rfl rfl (by decide)
  obtain ⟨issued, htrace, hissued⟩ := hhandled.unreplayed
  have hreplayed : ∃ x ∈ (processStreamEvent (quietWorld fun _ => 0)
      ⟨"source", ⟨1, 0⟩, .targetTable "cdc" "stream"⟩ (queryAt 20 "create view v as select 1")
      (.attempt freshDb none (some "app") "bin.000001")).2.trace,
      x.op = .replay ⟨"bin.000001", 20⟩ "create view v as select 1" := by decide +kernel
  obtain ⟨x, hx, hop⟩ := hreplayed
  rw [htrace] at hx
  refine hissued x hx ?_
  rw [hop]
  trivial

/-- A view is created by a statement in upper case after a comment. -/
def commentedCreateView : ServerStatement where
  skipped := ["/* v */".toList, "\n".toList]
  verb := "CREATE".toList
  separator := ' '
  rest := "VIEW v AS SELECT 1".toList
  skips := by
    simp only [List.mem_cons, List.not_mem_nil, or_false]
    rintro text (rfl | rfl)
    · exact .block " v ".toList (by decide) (by decide)
    · exact .space '\n' (by decide)
  letters := by decide
  nonempty := by decide
  separates := by decide
  continues := by decide

/-- The statement in upper case is handled as DDL. -/
theorem commented_schema_change_handledAsDdl :
    HandledAsDdl (quietWorld fun _ => 0) ⟨"source", ⟨1, 0⟩, .targetTable "cdc" "stream"⟩
      (queryAt 20 "/* v */\nCREATE VIEW v AS SELECT 1")
      ⟨[], "app", "/* v */\nCREATE VIEW v AS SELECT 1"⟩
      (.attempt freshDb none (some "app") "bin.000001") := by
  have hiff := (schema_change_handledAsDdl_iff (quietWorld fun _ => 0) "source" "cdc" "stream"
    ⟨1, 0⟩ freshDb none (some "app") "bin.000001" [] _ rfl
    (queryAt 20 "/* v */\nCREATE VIEW v AS SELECT 1")
    ⟨[], "app", "/* v */\nCREATE VIEW v AS SELECT 1"⟩ rfl rfl commentedCreateView rfl
    (by decide)).2 ?_
  · exact hiff.mpr (Or.inl ⟨by decide, by decide⟩)
  · simp only [ServerStatement.PlainlyCommented, commentedCreateView, List.mem_cons,
      List.not_mem_nil, or_false]
    rintro text (rfl | rfl)
    · unfold PlainlyOpened
      decide
    · unfold PlainlyOpened
      decide

/-! ## Data changes -/

/-- A data change does not control a transaction. -/
theorem ServerStatement.ChangesData.not_isTransactionControl {statement : ServerStatement}
    (h : statement.ChangesData) {sql : String} (hsql : sql.toList = statement.sql) :
    isTransactionControlQuery sql = false := by
  have hcontrol : ∀ text : Text, (∀ word ∈ ["BEGIN".toList, "COMMIT".toList, "ROLLBACK".toList],
      text ≠ word) →
      (text == "BEGIN".toList || text == "COMMIT".toList || text == "ROLLBACK".toList) = false := by
    intro text htext
    simpa [and_assoc] using htext
  unfold isTransactionControlQuery Text.trim
  rw [hsql]
  refine hcontrol _ fun word hword => ?_
  rcases statement.trimStart_sql with ⟨c, rest, htrim, hc⟩ | htrim
  · -- A comment is left in front.
    have hplain : ∀ c ∈ ['#', '-', '/'], Text.isWhitespace c = false ∧ (c == ';') = false ∧
        ∀ word ∈ ["BEGIN".toList, "COMMIT".toList, "ROLLBACK".toList],
          word.head? ≠ some c.toUpper := by decide
    obtain ⟨hspace, hsemicolon, hhead⟩ := hplain c hc
    obtain ⟨tail, htail⟩ := trim_append (List.forall_mem_singleton.mpr hspace)
      (List.forall_mem_singleton.mpr hsemicolon) rest
    rw [htrim, show c :: rest = [c] ++ rest from rfl, htail]
    rintro rfl
    exact hhead _ hword rfl
  · obtain ⟨tail, htail⟩ := trim_append (fun c hc => verb_not_isWhitespace hc)
      (fun c hc => verb_ne_semicolon hc) (statement.separator :: statement.rest)
    rw [htrim, htail]
    intro heq
    have hapart : ∀ verb ∈ dataVerbs,
        ∀ word ∈ ["BEGIN".toList, "COMMIT".toList, "ROLLBACK".toList],
          word.take verb.length ≠ verb.take word.length := by decide
    refine hapart _ h word hword (take_eq_take_of_starts (?_ : word <+: _ ++ Text.toAsciiUppercase tail))
    rw [← heq, Text.toAsciiUppercase, List.map_append]
    exact List.prefix_refl _

/-- The handler of query events refuses to replay the statement. -/
def RefusesReplay (state : StructuredEventState) (query : QueryEvent) : Prop :=
  queryContainsQualifiedIdentifierWithMode query.sqlStatement.toList false = true ∨
    state.pendingUservars ≠ [] ∨ (∃ intvar ∈ state.pendingIntvars, intvar.intvarType ≠ 2) ∨
    ∃ reason, classifyStatement (normalizeStatement query.sqlStatement.toList) = .quarantine reason

section QueryHandler

variable {query : QueryEvent} {s : Runtime}

/-- A refused statement fails. -/
theorem wp_applyQueryEvent_refused (world : World) (coordinate : BinlogCoordinate)
    (h : (∃ error, queryEventPrecheck s.state query = .error error) ∨
      (queryEventPrecheck s.state query = .ok none ∧ RefusesReplay s.state query)) :
    Prog.wp (applyQueryEvent world coordinate query) (fun _ _ => False) (fun _ _ => True) s := by
  unfold applyQueryEvent
  simp only [Prog.wp_bind, Prog.wp_reads]
  rcases h with ⟨error, hprecheck⟩ | ⟨hprecheck, hrefuses⟩
  · rw [hprecheck]
    simp
  · rw [hprecheck]
    simp only [Prog.wp_bind, wp_decided]
    refine ⟨fun _ hqualified => ?_, fun _ _ => trivial⟩
    unfold applyQueryContext
    simp only [Prog.wp_bind, Prog.wp_reads]
    split
    · trivial
    · next huservars =>
      refine Prog.wp_mono (Prog.wp_forEach (fun done s' => s'.state = s.state ∧
        ∀ intvar ∈ done, intvar.intvarType = 2) s.state.pendingIntvars (applyIntvar world) ?_
        ⟨rfl, by simp⟩) ?_ fun _ _ h => h
      · rintro done intvar rest s' - ⟨hstate, hdone⟩
        unfold applyIntvar
        split
        · trivial
        · next htype =>
          refine wp_transition ⟨hstate, fun other hother => ?_⟩ fun _ => trivial
          rcases List.mem_append.mp hother with hother | hother
          · exact hdone other hother
          · obtain rfl := List.mem_singleton.mp hother
            exact not_not.mp htype
      · rintro _ s' ⟨-, hintvars⟩
        -- What is left to refuse the statement is its classification.
        rcases hrefuses with hrefuses | hrefuses | ⟨intvar, hmem, htype⟩ | ⟨reason, hreason⟩
        · simp [rejectAmbiguousQueryDatabase, hrefuses] at hqualified
        · exact absurd hrefuses huservars
        · exact absurd (hintvars intvar hmem) htype
        · rw [Prog.wp_andThen]
          unfold applyQueryStatement
          dsimp only
          rw [hreason]
          trivial

/-- A statement that is not refused succeeds when its operations do. -/
theorem wp_applyQueryEvent_accepted (query : QueryEvent) (coordinate : BinlogCoordinate)
    (hprecheck : ∃ policy, queryEventPrecheck s.state query = .ok policy ∧
      (policy = none → ¬RefusesReplay s.state query)) :
    Prog.wp (applyQueryEvent (quietWorld fun _ => 0) coordinate query) (fun _ _ => True)
      (fun _ _ => False) s := by
  have hdone : ∀ {wrap : String → ApplyBinlogError} {op : TargetOp} {effect : Target → Target}
      {s : Runtime}, Prog.wp (transition (quietWorld fun _ => 0) wrap op effect) (fun _ _ => True)
        (fun _ _ => False) s := trivial
  obtain ⟨policy, hprecheck, haccepts⟩ := hprecheck
  unfold applyQueryEvent
  simp only [Prog.wp_bind, Prog.wp_reads, hprecheck]
  cases policy with
  | some policy => trivial
  | none =>
    have haccepts := haccepts rfl
    simp only [RefusesReplay, not_or, not_not, Bool.not_eq_true, not_exists, not_and] at haccepts
    obtain ⟨hqualified, huservars, hintvars, hclassified⟩ := haccepts
    simp only [Prog.wp_bind, wp_decided]
    refine ⟨fun _ _ => ?_, fun error herror => ?_⟩
    · unfold applyQueryContext
      simp only [Prog.wp_bind, Prog.wp_reads, huservars, not_true_eq_false, if_false, ne_eq]
      refine Prog.wp_mono (Prog.wp_forEach (fun _ _ => True) s.state.pendingIntvars
        (applyIntvar (quietWorld fun _ => 0)) ?_ trivial) ?_ fun _ _ h => h
      · intro done intvar rest s' hintvar _
        unfold applyIntvar
        rw [if_neg (not_not.mpr (hintvars intvar (by rw [← hintvar]; simp)))]
        exact hdone
      · intro _ s' _
        rw [Prog.wp_andThen]
        unfold applyQueryStatement
        dsimp only
        cases hdecision : classifyStatement (normalizeStatement query.sqlStatement.toList) with
        | replay =>
          rw [Prog.wp_bind]
          exact Prog.wp_mono hdone (fun _ _ _ => trivial) fun _ _ h => h
        | skip => trivial
        | quarantine reason => exact absurd hdecision (hclassified reason)
    · simp [rejectAmbiguousQueryDatabase, hqualified] at herror

end QueryHandler

/-- The handler a query event goes to fails it, whatever becomes of the operations. -/
def FailsQuery (semantics : DdlSemantics) (input : SourceStreamEvent) (query : QueryEvent)
    (s : Runtime) : Prop :=
  s.core.reader.routeOf semantics input = .manual query ∨
    (s.core.reader.routeOf semantics input = .transactional ∧
      ∀ (world : World) (coordinate : BinlogCoordinate) (s' : Runtime),
        s'.state = s.state.recordEventPosition input.sourcePosition →
        (applyQueryEvent world coordinate query s').1.toBool = false)

section Failing

variable {world : World} {config : StreamConfig} {table name : String} {s : Runtime}
  {input : SourceStreamEvent} {query : QueryEvent}

/-- A program that cannot succeed fails. -/
theorem Prog.toBool_eq_false {σ ε α : Type} {c : Prog σ ε α} {E : ε → σ → Prop} {s : σ}
    (h : Prog.wp c (fun _ _ => False) E s) : (c s).1.toBool = false := by
  unfold Prog.wp at h
  cases hc : c s with
  | mk result s' =>
    rw [hc] at h
    cases result with
    | ok value => exact h.elim
    | error error => rfl

/-- A program that cannot fail succeeds. -/
theorem Prog.toBool_eq_true {σ ε α : Type} {c : Prog σ ε α} {Q : α → σ → Prop} {s : σ}
    (h : Prog.wp c Q (fun _ _ => False) s) : (c s).1.toBool = true := by
  unfold Prog.wp at h
  cases hc : c s with
  | mk result s' =>
    rw [hc] at h
    cases result with
    | ok value => rfl
    | error error => exact h.elim

/-- A program that fails has no value to satisfy. -/
theorem Prog.wp_of_toBool_eq_false {σ ε α : Type} {c : Prog σ ε α} {Q : α → σ → Prop} {s : σ}
    (h : (c s).1.toBool = false) : Prog.wp c Q (fun _ _ => True) s := by
  unfold Prog.wp
  cases hc : c s with
  | mk result s' =>
    rw [hc] at h
    cases result with
    | ok value => cases h
    | error error => trivial

/-- A query event its handler fails is not passed by the stream. -/
theorem FailsQuery.processStreamEvent (hmode : config.checkpoint = .targetTable table name)
    (hsound : s.core.Sound) (hevent : input.event = .query query)
    (h : FailsQuery world.semantics input query s) :
    (processStreamEvent world config input s).1.toBool = false := by
  rcases h with hmanual | ⟨hroute, hfails⟩
  · exact Prog.toBool_eq_false (wp_processStreamEvent_manual config hmanual)
  · refine Prog.toBool_eq_false (E := fun _ _ => True) ?_
    have hdecisions : handlesAutomatically world.semantics
        (s.state.recordEventPosition input.sourcePosition) query = false ∧
        needsManualDdl world.semantics (s.state.recordEventPosition input.sourcePosition) query =
          false := by
      simp only [Reader.routeOf, route, hevent] at hroute
      split at hroute
      · cases hroute
      · next hauto =>
        split at hroute
        · cases hroute
        · next hmanual => exact ⟨Bool.eq_false_iff.mpr hauto, Bool.eq_false_iff.mpr hmanual⟩
    unfold BinlogCdc.processStreamEvent dispatchDdlOrTransactionalEvent handleDdlEvent
    simp only [Prog.wp_bind, wp_updateState, Prog.wp_pure, hevent, Prog.wp_reads, id, hdecisions.1,
      hdecisions.2, Bool.false_eq_true, if_false]
    unfold applyStreamEventTransactionally
    simp only [Prog.wp_bind, wp_readClock, Prog.wp_reads]
    set handle : Stream StructuredEventOutcome := do
      let outcome ← Prog.onError (handleStructuredEvent world input.header (.query query))
        fun error => do
          rollbackIfOpen world
          stopWith error
      if outcome.policy = .commitTransaction then
        finishSourceTransaction world config (.query query) outcome
          (BinlogEvent.query query).isQuery
        pure outcome
      else
        saveOutcomeCheckpoint world config (.query query) outcome
        pure outcome with hhandle
    -- From any state with the same handler state the handler fails.
    have hhandler : ∀ s' : Runtime,
        s'.state = s.state.recordEventPosition input.sourcePosition →
        Prog.wp handle (fun _ _ => False) (fun _ _ => True) s' := by
      intro s' hstate
      rw [hhandle, Prog.wp_bind, Prog.wp_onError]
      unfold handleStructuredEvent applyStructuredEvent
      simp only [Prog.wp_bind, Prog.wp_reads, id]
      refine Prog.wp_mono (Prog.wp_of_toBool_eq_false (hfails world _ s' hstate))
        (fun _ _ h => h) ?_
      intro stop s'' _
      cases stop with
      | crash => trivial
      | error error =>
        unfold rollbackIfOpen finishIfOpen
        simp only [Prog.wp_bind, Prog.wp_reads]
        split
        · rw [Prog.wp_bind]
          exact wp_transition trivial fun _ => trivial
        · trivial
    have hentered : ∀ s' : Runtime,
        s'.state = s.state.recordEventPosition input.sourcePosition →
        Prog.wp (do
          let state ← Prog.reads Runtime.state
          if eventCanWriteTarget (.query query) state then do
            beginIfNeeded world
            handle
          else handle) (fun _ _ => False) (fun _ _ => True) s' := by
      intro s' hstate
      rw [Prog.wp_bind, Prog.wp_reads]
      split
      · rw [Prog.wp_bind]
        refine wp_beginIfNeeded ?_ fun _ _ _ => trivial
        intro now s'' _ hcore
        have hsame := congrArg StreamCore.state hcore
        refine hhandler s'' ?_
        unfold StreamCore.begun at hsame
        split at hsame
        · exact hsame.trans hstate
        · exact hsame.trans hstate
      · exact hhandler s' hstate
    split
    · rw [Prog.wp_bind]
      refine wp_flushGroupedTransaction hmode hsound.valid ?_ fun _ _ _ => trivial
      intro s' _ hcore
      have hsame := congrArg StreamCore.state hcore
      refine hentered s' ?_
      unfold StreamCore.flushed at hsame
      split at hsame
      · exact hsame
      · exact hsame
    · exact hentered _ rfl

end Failing

/-- The translator accepts no statement that changes data. -/
def DdlSemantics.RejectsDataChanges (semantics : DdlSemantics) : Prop :=
  ∀ (statement : ServerStatement) (sql : String) (mode : Option Nat), statement.ChangesData →
    sql.toList = statement.sql → semantics.supportsDdlTransformation sql
      (semantics.supportsSourceOnlyReleaseMoveProcedureCreate sql) mode = false ∧
      semantics.supportsAutomaticDdlOperation sql mode = false

section DataChanges

variable {semantics : DdlSemantics} {s : Runtime} {input : SourceStreamEvent} {query : QueryEvent}
  {statement : ServerStatement}

/-- The translator does not handle a data change. -/
theorem not_handlesAutomatically (h : semantics.RejectsDataChanges)
    (hsql : query.sqlStatement.toList = statement.sql) (hchanges : statement.ChangesData)
    (state : StructuredEventState) : handlesAutomatically semantics state query = false := by
  have hrejects := fun mode => h statement query.sqlStatement mode hchanges hsql
  unfold handlesAutomatically
  cases sourceSqlMode semantics query with
  | none => simp
  | some mode => simp [(hrejects mode).1, (hrejects mode).2]

/-- When the handler of a data change fails. -/
theorem failsQuery_iff (htranslator : semantics.RejectsDataChanges)
    (hevent : input.event = .query query) (hsql : query.sqlStatement.toList = statement.sql)
    (hchanges : statement.ChangesData) :
    FailsQuery semantics input query s ↔
      (isDataChangingStatement query.sqlStatement.toList = true ∧
        (s.state.shouldApplySchema query.databaseName = true ∨ query.databaseName.isEmpty = true ∨
          queryReferencesSourceSchema s.state query.sqlStatement = true)) ∨
      needsManualDdl semantics s.state query = true ∨
      (s.state.shouldApplySchema query.databaseName = true ∧ RefusesReplay s.state query) := by
  have hroute : s.core.reader.routeOf semantics input =
      if needsManualDdl semantics s.state query then .manual query else .transactional := by
    have hauto := not_handlesAutomatically htranslator hsql hchanges
      (s.core.reader.located input.sourcePosition).state
    simp only [Reader.routeOf, route, hevent, hauto, Bool.false_eq_true, if_false]
    rfl
  by_cases hmanual : needsManualDdl semantics s.state query = true
  · rw [if_pos hmanual] at hroute
    exact iff_of_true (Or.inl hroute) (Or.inr (Or.inl hmanual))
  · rw [if_neg hmanual] at hroute
    -- The handler fails exactly when it refuses the statement.
    have hhandler : FailsQuery semantics input query s ↔
        (∃ error, queryEventPrecheck s.state query = .error error) ∨
          (queryEventPrecheck s.state query = .ok none ∧ RefusesReplay s.state query) := by
      constructor
      · rintro (hroute' | ⟨-, hfails⟩)
        · rw [hroute] at hroute'
          cases hroute'
        · by_contra hnot
          rw [not_or] at hnot
          obtain ⟨hnoError, haccepted⟩ := hnot
          have hsucceeds := Prog.toBool_eq_true (wp_applyQueryEvent_accepted
            (s := { s with state := s.state.recordEventPosition input.sourcePosition }) query
            ⟨"", 0⟩ ?_)
          · rw [hfails _ _ _ rfl] at hsucceeds
            cases hsucceeds
          · cases hprecheck : queryEventPrecheck s.state query with
            | error error => exact absurd ⟨error, hprecheck⟩ hnoError
            | ok policy =>
              refine ⟨policy, hprecheck, ?_⟩
              rintro rfl hrefuses
              exact haccepted ⟨hprecheck, hrefuses⟩
      · intro hrefused
        refine Or.inr ⟨hroute, fun world coordinate s' hstate => ?_⟩
        refine Prog.toBool_eq_false (wp_applyQueryEvent_refused world coordinate ?_)
        rw [hstate]
        exact hrefused
    have hcontrol := hchanges.not_isTransactionControl hsql
    rw [hhandler]
    unfold queryEventPrecheck
    simp only [hcontrol, Bool.false_eq_true, if_false]
    by_cases hsource : s.state.shouldApplySchema query.databaseName = true
    · by_cases hdata : isDataChangingStatement query.sqlStatement.toList = true
      · simp [hsource, hdata]
      · simp [hsource, hdata, hmanual]
    · by_cases hdata : isDataChangingStatement query.sqlStatement.toList = true
      · by_cases hmay : query.databaseName.isEmpty = true ∨
          queryReferencesSourceSchema s.state query.sqlStatement = true
        · rcases hmay with hmay | hmay <;> simp [hdata, hmay]
        · rw [not_or] at hmay
          simp [hsource, hdata, hmay.1, hmay.2, hmanual]
      · simp [hsource, hdata, hmanual]

end DataChanges

/-- The statement names a table of the schema behind its first word and a modifier. -/
def insertIgnore : ServerStatement where
  skipped := []
  verb := "INSERT".toList
  separator := ' '
  rest := "IGNORE INTO app.t VALUES (1)".toList
  skips := by simp
  letters := by decide
  nonempty := by decide
  separates := by decide
  continues := by decide

/-- A data change of a table of the source schema stops the stream. -/
def DataChangesFail : Prop :=
  ∀ (world : World) (config : StreamConfig) (table name : String) (s : Runtime)
    (input : SourceStreamEvent) (query : QueryEvent) (statement : ServerStatement),
    config.checkpoint = .targetTable table name → s.core.Sound → input.event = .query query →
    world.semantics.RejectsDataChanges → query.sqlStatement.toList = statement.sql →
    statement.ChangesData → queryReferencesSourceSchema s.state query.sqlStatement = true →
    (processStreamEvent world config input s).1.toBool = false

/-- The same insert without the modifier stops the stream. -/
def plainInsert : ServerStatement where
  skipped := []
  verb := "insert".toList
  separator := ' '
  rest := "into app.t values (1)".toList
  skips := by simp
  letters := by decide
  nonempty := by decide
  separates := by decide
  continues := by decide

end BinlogCdc
