import BinlogCdc.Stream.Reconnect

/-!
# What the reconnect loop does over a run

After any number of rounds, in any world: which errors were followed by another attempt, how many
of them counted, and where each attempt started. The invariant of the rounds is that every attempt
so far was retried, and that the next one is ready to start at the checkpoint that was just loaded.
-/

namespace BinlogCdc

/-- The attempts of a run, each with its outcome. -/
def attemptsOf (calls : List ReconnectCall) :
    List (ApplyBinlogConfig × Except ApplyBinlogError Unit) :=
  calls.filterMap fun
    | .attempt config outcome => some (config, outcome)
    | _ => none

/-- The outcome is an error other than a DDL block. -/
def countedError : Except ApplyBinlogError Unit → Bool
  | .error error => !isDdlBlocked error
  | .ok () => false

/-- How many attempts ended in an error other than a DDL block. -/
def countedErrors (attempts : List (ApplyBinlogConfig × Except ApplyBinlogError Unit)) : Nat :=
  attempts.countP fun attempt => countedError attempt.2

theorem countedErrors_concat (attempts : List (ApplyBinlogConfig × Except ApplyBinlogError Unit))
    (config : ApplyBinlogConfig) (error : ApplyBinlogError) :
    countedErrors (attempts ++ [(config, .error error)]) =
      countedErrors attempts + if isDdlBlocked error then 0 else 1 := by
  cases hddl : isDdlBlocked error <;>
    simp [countedErrors, List.countP_append, countedError, hddl]

/-- An error after which the loop may attempt again. -/
structure MayRetry (error : ApplyBinlogError) : Prop where
  notStale : isStaleOrMissingBinlogError error = false
  eligible : isDdlBlocked error = true ∨ isRetryableStreamError error = true

section Run

variable {σ : Type} {world : ReconnectWorld σ} {checkpointStore : Option (CheckpointStore σ)}
  {config : ApplyBinlogConfig}

/-- After the calls, an attempt under the configuration starts where it must: with a store, at the
checkpoint of the last load, with nothing but sleep since; without one, where the loop was told to
start, and as its first call. -/
def StartsAt (config : ApplyBinlogConfig) (checkpointStore : Option (CheckpointStore σ))
    (calls : List ReconnectCall) (attemptConfig : ApplyBinlogConfig) : Prop :=
  match checkpointStore with
  | none => calls = [] ∧ attemptConfig = config
  | some _ => ∃ before checkpoint waits, calls = before ++ .load (.ok (some checkpoint)) :: waits ∧
      (∀ call ∈ waits, ∃ seconds, call = .sleep seconds) ∧
      attemptConfig = updateSourceCoordinateFromCheckpoint config (some checkpoint)

/-- Every attempt of the run starts where it must. -/
def AllStartAt (config : ApplyBinlogConfig) (checkpointStore : Option (CheckpointStore σ))
    (calls : List ReconnectCall) : Prop :=
  ∀ before attemptConfig outcome, before ++ [.attempt attemptConfig outcome] <+: calls →
    StartsAt config checkpointStore before attemptConfig

/-- What holds of the attempts that were followed by another one. -/
structure Retried (config : ApplyBinlogConfig) (checkpointStore : Option (CheckpointStore σ))
    (retried : List (ApplyBinlogConfig × Except ApplyBinlogError Unit)) : Prop where
  /-- Each ended in an error that may be retried, and there is a store. -/
  each : ∀ attempt ∈ retried, ∃ error, attempt.2 = .error error ∧ MayRetry error ∧
    checkpointStore.isSome = true
  /-- The counted errors are limited. -/
  counted : config.reconnectForever = false →
    countedErrors retried ≤ config.maxReconnects.toNat

/-- The state between two rounds. -/
structure ReconnectInvariant (config : ApplyBinlogConfig)
    (checkpointStore : Option (CheckpointStore σ)) (loop : ReconnectLoop)
    (calls : List ReconnectCall) : Prop where
  retried : Retried config checkpointStore (attemptsOf calls)
  counter : config.reconnectForever = false →
    loop.transportReconnects.toNat = countedErrors (attemptsOf calls)
  starts : AllStartAt config checkpointStore calls
  ready : StartsAt config checkpointStore calls loop.attemptConfig

/-- The state in which the loop returns. -/
structure ReconnectEnd (config : ApplyBinlogConfig) (checkpointStore : Option (CheckpointStore σ))
    (calls : List ReconnectCall) : Prop where
  retried : Retried config checkpointStore (attemptsOf calls).dropLast
  starts : AllStartAt config checkpointStore calls

/-! ## Records -/

theorem attemptsOf_append (calls more : List ReconnectCall) :
    attemptsOf (calls ++ more) = attemptsOf calls ++ attemptsOf more :=
  List.filterMap_append

theorem AllStartAt.append_attempt {calls : List ReconnectCall} {attemptConfig : ApplyBinlogConfig}
    (h : AllStartAt config checkpointStore calls)
    (hready : StartsAt config checkpointStore calls attemptConfig)
    (outcome : Except ApplyBinlogError Unit) :
    AllStartAt config checkpointStore (calls ++ [.attempt attemptConfig outcome]) := by
  intro before other result hprefix
  rcases List.prefix_concat_iff.mp hprefix with heq | hprefix
  · obtain ⟨rfl, hcall⟩ := List.append_inj' heq rfl
    obtain ⟨rfl, -⟩ : other = attemptConfig ∧ result = outcome := by
      simpa using hcall
    exact hready
  · exact h before other result hprefix

theorem AllStartAt.append_other {calls : List ReconnectCall} {call : ReconnectCall}
    (h : AllStartAt config checkpointStore calls) (hcall : attemptsOf [call] = []) :
    AllStartAt config checkpointStore (calls ++ [call]) := by
  intro before other result hprefix
  rcases List.prefix_concat_iff.mp hprefix with heq | hprefix
  · obtain ⟨-, hlast⟩ := List.append_inj' heq rfl
    obtain rfl : ReconnectCall.attempt other result = call := by
      simpa using hlast
    simp [attemptsOf] at hcall
  · exact h before other result hprefix

theorem Retried.of_sublist {retried fewer : List (ApplyBinlogConfig × Except ApplyBinlogError Unit)}
    (h : Retried config checkpointStore retried) (hsub : List.Sublist fewer retried) :
    Retried config checkpointStore fewer where
  each attempt hattempt := h.each attempt (hsub.subset hattempt)
  counted hoff := (hsub.countP_le).trans (h.counted hoff)

theorem ReconnectInvariant.ended {loop : ReconnectLoop} {calls : List ReconnectCall}
    (h : ReconnectInvariant config checkpointStore loop calls) :
    ReconnectEnd config checkpointStore calls :=
  ⟨h.retried.of_sublist (List.dropLast_sublist _), h.starts⟩

/-- The state after an attempt, whatever its outcome. -/
theorem ReconnectInvariant.attempted {loop : ReconnectLoop} {calls : List ReconnectCall}
    (h : ReconnectInvariant config checkpointStore loop calls)
    (outcome : Except ApplyBinlogError Unit) :
    ReconnectEnd config checkpointStore (calls ++ [.attempt loop.attemptConfig outcome]) where
  retried := by
    have hattempts : attemptsOf (calls ++ [.attempt loop.attemptConfig outcome]) =
        attemptsOf calls ++ [(loop.attemptConfig, outcome)] := attemptsOf_append _ _
    rw [hattempts, List.dropLast_concat]
    exact h.retried
  starts := h.starts.append_attempt h.ready outcome

theorem ReconnectEnd.append_other {calls : List ReconnectCall} {call : ReconnectCall}
    (h : ReconnectEnd config checkpointStore calls) (hcall : attemptsOf [call] = []) :
    ReconnectEnd config checkpointStore (calls ++ [call]) where
  retried := by
    rw [attemptsOf_append, hcall, List.append_nil]
    exact h.retried
  starts := h.starts.append_other hcall

/-! ## Rounds -/

/-- The checkpoint to resume from, and the call that loaded it. -/
def Loaded (checkpointStore : Option (CheckpointStore σ)) (calls : List ReconnectCall)
    (checkpoint : Option Checkpoint) (after : List ReconnectCall) : Prop :=
  match checkpointStore with
  | none => checkpoint = none ∧ after = calls
  | some _ => ∃ loaded, checkpoint = some loaded ∧ after = calls ++ [.load (.ok (some loaded))]

theorem wp_loadCheckpointForResume (run : σ × List ReconnectCall) :
    (loadCheckpointForResume checkpointStore).wp
      (fun checkpoint after => Loaded checkpointStore run.2 checkpoint after.2)
      (fun _ after => ∃ result, after.2 = run.2 ++ [.load result]) run := by
  cases checkpointStore with
  | none => exact ⟨rfl, rfl⟩
  | some store =>
    rw [loadCheckpointForResume, Prog.wp_bind]
    unfold Prog.wp callLoad
    cases hload : store run.1 with
    | mk result state =>
      cases result with
      | error error => exact ⟨_, rfl⟩
      | ok checkpoint =>
        cases checkpoint with
        | none => exact ⟨_, rfl⟩
        | some loaded => exact ⟨loaded, rfl, rfl⟩

/-- An attempt that follows a load starts at the loaded checkpoint. -/
theorem Loaded.startsAt {store : CheckpointStore σ} {calls after waits : List ReconnectCall}
    {checkpoint : Option Checkpoint} (h : Loaded (some store) calls checkpoint after)
    (hwaits : ∀ call ∈ waits, ∃ seconds, call = .sleep seconds) :
    StartsAt config (some store) (after ++ waits)
      (updateSourceCoordinateFromCheckpoint config checkpoint) := by
  obtain ⟨loaded, rfl, rfl⟩ := h
  exact ⟨calls, loaded, waits, by rw [List.append_assoc]; rfl, hwaits, rfl⟩

theorem Loaded.attemptsOf_eq {calls after : List ReconnectCall} {checkpoint : Option Checkpoint}
    (h : Loaded checkpointStore calls checkpoint after) : attemptsOf after = attemptsOf calls := by
  cases checkpointStore with
  | none => rw [h.2]
  | some store =>
    obtain ⟨loaded, -, rfl⟩ := h
    rw [attemptsOf_append]
    exact List.append_nil _

theorem Loaded.allStartAt {calls after : List ReconnectCall} {checkpoint : Option Checkpoint}
    (h : Loaded checkpointStore calls checkpoint after)
    (hstarts : AllStartAt config checkpointStore calls) :
    AllStartAt config checkpointStore after := by
  cases checkpointStore with
  | none => rwa [h.2]
  | some store =>
    obtain ⟨loaded, -, rfl⟩ := h
    exact hstarts.append_other rfl

/-- Only the coordinate of an attempt differs from the configuration. -/
theorem StartsAt.update_eq {calls : List ReconnectCall} {attemptConfig : ApplyBinlogConfig}
    (h : StartsAt config checkpointStore calls attemptConfig) (checkpoint : Checkpoint) :
    updateSourceCoordinateFromCheckpoint attemptConfig (some checkpoint) =
      updateSourceCoordinateFromCheckpoint config (some checkpoint) := by
  cases checkpointStore with
  | none =>
    obtain ⟨-, rfl⟩ := h
    rfl
  | some store =>
    obtain ⟨_, _, _, -, -, rfl⟩ := h
    rfl

theorem staleBinlogError_eq_none {error : ApplyBinlogError} (h : staleBinlogError error = none) :
    isStaleOrMissingBinlogError error = false := by
  cases error with
  | sourceCommand message =>
    by_cases hstale : isStaleOrMissingBinlogError (.sourceCommand message) = true
    · rw [staleBinlogError, if_pos hstale] at h
      cases h
    · exact Bool.eq_false_iff.mpr hstale
  | _ => rfl

/-- The counter after a round counts the errors after it. -/
theorem Retried.next {loop : ReconnectLoop} {error : ApplyBinlogError}
    {attempts : List (ApplyBinlogConfig × Except ApplyBinlogError Unit)}
    (h : Retried config checkpointStore attempts)
    (hcounter : config.reconnectForever = false →
      loop.transportReconnects.toNat = countedErrors attempts)
    (hnotStale : isStaleOrMissingBinlogError error = false)
    (hstore : checkpointStore.isSome = true)
    (heligible : isDdlBlocked error = true ∨ shouldReconnect error loop.transportReconnects
      config.maxReconnects config.reconnectForever = true) :
    Retried config checkpointStore (attempts ++ [(loop.attemptConfig, .error error)]) ∧
      (config.reconnectForever = false →
        (if isDdlBlocked error then loop.transportReconnects
          else loop.transportReconnects + 1).toNat =
            countedErrors (attempts ++ [(loop.attemptConfig, .error error)])) := by
  have hmay : MayRetry error := by
    refine ⟨hnotStale, heligible.imp_right fun hshould => ?_⟩
    rw [shouldReconnect, Bool.and_eq_true] at hshould
    exact hshould.2
  have heach : ∀ attempt ∈ attempts ++ [(loop.attemptConfig, .error error)], ∃ error,
      attempt.2 = .error error ∧ MayRetry error ∧ checkpointStore.isSome = true := by
    intro attempt hattempt
    rcases List.mem_append.mp hattempt with hattempt | hattempt
    · exact h.each attempt hattempt
    · obtain rfl := List.mem_singleton.mp hattempt
      exact ⟨error, rfl, hmay, hstore⟩
  have hcount := countedErrors_concat attempts loop.attemptConfig error
  by_cases hddl : isDdlBlocked error = true
  · rw [if_pos hddl, Nat.add_zero] at hcount
    rw [if_pos hddl, hcount]
    exact ⟨⟨heach, fun hoff => hcount ▸ h.counted hoff⟩, hcounter⟩
  · rw [if_neg hddl] at hcount
    have hless : config.reconnectForever = false →
        loop.transportReconnects.toNat < config.maxReconnects.toNat := by
      intro hoff
      have hshould := heligible.resolve_left hddl
      simp only [shouldReconnect, hoff, Bool.false_or, Bool.and_eq_true, decide_eq_true_eq] at hshould
      exact UInt32.lt_iff_toNat_lt.mp hshould.1
    refine ⟨⟨heach, fun hoff => ?_⟩, fun hoff => ?_⟩
    · rw [hcount, ← hcounter hoff]
      exact hless hoff
    · have hbound := config.maxReconnects.toNat_lt
      have hlt := hless hoff
      rw [if_neg hddl, hcount, ← hcounter hoff, UInt32.toNat_add]
      simp only [UInt32.reduceToNat]
      omega

/-- One round keeps the invariant, or the loop returns. -/
theorem wp_reconnectRound {loop : ReconnectLoop} {run : σ × List ReconnectCall}
    (h : ReconnectInvariant config checkpointStore loop run.2) :
    (reconnectRound world checkpointStore config loop).wp
      (fun next after => match next with
        | some loop => ReconnectInvariant config checkpointStore loop after.2
        | none => ReconnectEnd config checkpointStore after.2 ∧
            ∃ attemptConfig, (attemptsOf after.2).getLast? = some (attemptConfig, .ok ()))
      (fun _ after => ReconnectEnd config checkpointStore after.2) run := by
  rw [reconnectRound, Prog.wp_bind]
  change Prog.wp _ _ _ ((world.runAttempt loop.attemptConfig run.1).2,
    run.2 ++ [.attempt loop.attemptConfig (world.runAttempt loop.attemptConfig run.1).1])
  have hended := h.attempted (world.runAttempt loop.attemptConfig run.1).1
  have hattempts : attemptsOf (run.2 ++
      [.attempt loop.attemptConfig (world.runAttempt loop.attemptConfig run.1).1]) =
        attemptsOf run.2 ++ [(loop.attemptConfig, (world.runAttempt loop.attemptConfig run.1).1)] :=
    attemptsOf_append _ _
  generalize (world.runAttempt loop.attemptConfig run.1).1 = outcome at hended hattempts ⊢
  generalize (world.runAttempt loop.attemptConfig run.1).2 = state
  cases outcome with
  | ok value => exact ⟨hended, loop.attemptConfig, by rw [hattempts, List.getLast?_concat]⟩
  | error error =>
    dsimp only
    cases hstale : staleBinlogError error with
    | some staleError => exact hended
    | none =>
      by_cases hstop : (checkpointStore.isNone || !(isDdlBlocked error || shouldReconnect error
        loop.transportReconnects config.maxReconnects config.reconnectForever)) = true
      · rw [if_pos hstop]
        exact hended
      · rw [if_neg hstop, Prog.wp_bind]
        obtain ⟨hstore, heligible⟩ : checkpointStore.isSome = true ∧ (isDdlBlocked error = true ∨
            shouldReconnect error loop.transportReconnects config.maxReconnects
              config.reconnectForever = true) := by
          simpa only [Bool.or_eq_true, Bool.not_eq_true', not_or, Bool.not_eq_false,
            Option.isNone_iff_eq_none, ← Option.isSome_iff_ne_none] using hstop
        obtain ⟨store, rfl⟩ := Option.isSome_iff_exists.mp hstore
        obtain ⟨hretried, hcounter⟩ :=
          h.retried.next h.counter (staleBinlogError_eq_none hstale) rfl heligible
        refine Prog.wp_mono (wp_loadCheckpointForResume _) ?_ ?_
        · rintro checkpoint ⟨state', calls⟩ hloaded
          have hcalls := hloaded.attemptsOf_eq.trans hattempts
          have hstarts := hloaded.allStartAt hended.starts
          have hconfig : updateSourceCoordinateFromCheckpoint loop.attemptConfig checkpoint =
              updateSourceCoordinateFromCheckpoint config checkpoint := by
            obtain ⟨loaded, rfl, -⟩ := hloaded
            exact h.ready.update_eq loaded
          rw [Prog.wp_bind]
          cases hvalid : (updateSourceCoordinateFromCheckpoint loop.attemptConfig
            checkpoint).source.validateStartCoordinate with
          | error invalid =>
            refine ⟨?_, hstarts⟩
            rw [hcalls]
            exact hretried.of_sublist (List.dropLast_sublist _)
          | ok valid =>
            rw [Prog.wp_ofExcept_ok, Prog.wp_bind]
            have hwaited := attemptsOf_append calls [.sleep (reconnectDelay (loop.reconnectAttempt + 1))]
            rw [show attemptsOf [.sleep (reconnectDelay (loop.reconnectAttempt + 1))] = [] from rfl,
              List.append_nil, hcalls] at hwaited
            refine ⟨?_, ?_, hstarts.append_other rfl, ?_⟩
            · rw [hwaited]
              exact hretried
            · rw [hwaited]
              exact hcounter
            · rw [hconfig]
              exact hloaded.startsAt fun call hcall => ⟨_, List.mem_singleton.mp hcall⟩
        · rintro failure ⟨state', calls⟩ ⟨result, rfl⟩
          exact hended.append_other rfl

/-- Any number of rounds keep it. -/
theorem wp_reconnectRounds (rounds : Nat) {loop : ReconnectLoop} {run : σ × List ReconnectCall}
    (h : ReconnectInvariant config checkpointStore loop run.2) :
    (reconnectRounds world checkpointStore config rounds loop).wp
      (fun next after => ReconnectEnd config checkpointStore after.2 ∧ (next = none →
        ∃ attemptConfig, (attemptsOf after.2).getLast? = some (attemptConfig, .ok ())))
      (fun _ after => ReconnectEnd config checkpointStore after.2) run := by
  induction rounds generalizing loop run with
  | zero => exact ⟨h.ended, fun hnone => by cases hnone⟩
  | succ rounds ih =>
    rw [reconnectRounds, Prog.wp_bind]
    refine Prog.wp_mono (wp_reconnectRound h) ?_ (fun _ _ hended => hended)
    intro next after hround
    cases next with
    | none => exact ⟨hround.1, fun _ => hround.2⟩
    | some loop => exact ih hround

/-- Before its first call the loop has nothing to answer for. -/
theorem reconnectEnd_nil : ReconnectEnd config checkpointStore [] where
  retried := ⟨fun _ hattempt => (by cases hattempt), fun _ => Nat.zero_le _⟩
  starts before _ _ hprefix := by
    have hlength := hprefix.length_le
    simp at hlength

theorem wp_runStreamReconnectLoop (rounds : Nat) (state : σ) :
    (runStreamReconnectLoop world checkpointStore config rounds).wp
      (fun next after => ReconnectEnd config checkpointStore after.2 ∧ (next = none →
        ∃ attemptConfig, (attemptsOf after.2).getLast? = some (attemptConfig, .ok ())))
      (fun _ after => ReconnectEnd config checkpointStore after.2) (state, []) := by
  rw [runStreamReconnectLoop, Prog.wp_bind, resumeFromCheckpoint, Prog.wp_bind]
  refine Prog.wp_mono (wp_loadCheckpointForResume _) ?_ ?_
  · rintro checkpoint ⟨state', calls⟩ hloaded
    rw [Prog.wp_pure, Prog.wp_bind]
    have hready : StartsAt config checkpointStore calls
        (updateSourceCoordinateFromCheckpoint config checkpoint) := by
      cases checkpointStore with
      | none =>
        obtain ⟨rfl, rfl⟩ := hloaded
        exact ⟨rfl, rfl⟩
      | some store =>
        rw [← List.append_nil calls]
        exact hloaded.startsAt (List.forall_mem_nil _)
    have hnone : attemptsOf calls = [] := hloaded.attemptsOf_eq
    have hstarts : AllStartAt config checkpointStore calls :=
      hloaded.allStartAt reconnectEnd_nil.starts
    cases hvalid : (updateSourceCoordinateFromCheckpoint config
      checkpoint).source.validateStartCoordinate with
    | error invalid =>
      refine ⟨?_, hstarts⟩
      rw [hnone]
      exact reconnectEnd_nil.retried
    | ok valid =>
      rw [Prog.wp_ofExcept_ok]
      refine wp_reconnectRounds rounds ⟨?_, ?_, hstarts, hready⟩
      · rw [hnone]
        exact reconnectEnd_nil.retried
      · rw [hnone]
        exact fun _ => rfl
  · rintro error ⟨state', calls⟩ ⟨result, rfl⟩
    exact reconnectEnd_nil.append_other rfl

end Run

end BinlogCdc
