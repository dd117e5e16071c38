import PeReview.Review.Native.Budget
import PeReview.Review.Native.Complete
import PeReview.Review.Scheduling.Ledger

/-!
# The usage ledger across crashes

Every save that closes a leaf is an entry of a ledger.  The checkpoints in the backend
are that ledger, whatever crashes, so a resumed phase starts with what the closed
leaves have used, each charged once.
-/

namespace PeReview.Native

open PeReview.Data PeReview.Process PeReview.Scheduling

/-- A leaf that has been checkpointed as done or stopped, and what its session has
used. -/
structure Settlement where
  phase : Phase
  key : String
  usage : Usage
  deriving DecidableEq, Repr

/-- What the settled leaves of a phase have used. -/
def usageIn (phase : Phase) (settlements : List Settlement) : Usage :=
  ((settlements.filter fun entry => entry.phase = phase).map Settlement.usage).sum

def settledOf (checkpoints : Dict String WorkCheckpoint) : List Settlement :=
  (checkpoints.filter fun entry => entry.2.status ≠ .split).map fun entry =>
    { phase := entry.2.phase, key := entry.1, usage := entry.2.usage }

/-- The leaf whose checkpoint a phase is saving. -/
def PhaseState.settles {Payload : Type} (state : PhaseState Payload) (phase : Phase) :
    List Settlement :=
  match state.scheduler.control with
  | .saving session closing =>
      if closing.status = .split then []
      else [{ phase, key := session.work.key, usage := session.usage }]
  | _ => []

def EngineControl.settles : EngineControl → List Settlement
  | .candidate phase => phase.settles .candidate
  | .verification phase => phase.settles .verification
  | _ => []

def EngineState.settles (backend : Backend) (event : EngineEvent)
    (state : EngineState) : List Settlement :=
  if state.stores backend event then state.control.settles else []

/-- The leaves whose checkpoints a run of the engine has committed, in order. -/
def settlements (review : NativeReview) (backend : Backend)
    (events : List EngineEvent) : List Settlement :=
  recorded (engineStep review backend) (EngineState.settles backend) events {}

/-! ## The checkpoints as a ledger -/

theorem settledOf_append (first second : Dict String WorkCheckpoint) :
    settledOf (first ++ second) = settledOf first ++ settledOf second := by
  simp [settledOf]

theorem usageIn_append (phase : Phase) (first second : List Settlement) :
    usageIn phase (first ++ second) = usageIn phase first + usageIn phase second := by
  simp [usageIn]

theorem checkpointUsage_eq (phase : Phase) (checkpoints : Dict String WorkCheckpoint) :
    checkpointUsage phase checkpoints = usageIn phase (settledOf checkpoints) := by
  induction checkpoints with
  | nil =>
      rfl
  | cons entry rest inductionHypothesis =>
      simp only [checkpointUsage, usageIn, settledOf, Dict.values, List.map_cons,
        List.filter_cons] at inductionHypothesis ⊢
      by_cases whole : entry.2.status = .split
      · simpa [whole] using inductionHypothesis
      · by_cases same : entry.2.phase = phase
        · have more := congrArg (entry.2.usage + ·) inductionHypothesis
          simpa [whole, same] using more
        · simpa [whole, same] using inductionHypothesis

theorem keys_settledOf (checkpoints : Dict String WorkCheckpoint) :
    ((settledOf checkpoints).map Settlement.key).Sublist
      (checkpoints.map Prod.fst) := by
  have keys : (settledOf checkpoints).map Settlement.key =
      (checkpoints.filter fun entry => entry.2.status ≠ .split).map Prod.fst := by
    simp [settledOf, Function.comp_def]
  rw [keys]
  exact List.Sublist.map Prod.fst List.filter_sublist

/-- The charges of a record: one checkpoint a key, and after the candidate phase its
charges are frozen. -/
structure Priced (progress : ReviewProgress) : Prop where
  distinct : (progress.checkpoints.map Prod.fst).Nodup
  frozen : progress.phase ≠ .candidate →
    progress.candidateUsage = usageIn .candidate (settledOf progress.checkpoints)

structure Itemised (ledger : List Settlement) (state : EngineState) : Prop where
  nothing : state.durable = none → ledger = []
  durable : ∀ progress, state.durable = some progress →
    settledOf progress.checkpoints = ledger ∧ Priced progress

/-! ## Every save is an entry -/

/-- The record a phase saves has one checkpoint more than the backend. -/
structure PhaseState.Appends {Payload : Type} (state : PhaseState Payload)
    (phase : Phase) : Prop where
  distinct : (state.saved.checkpoints.map Prod.fst).Nodup →
    (state.record.checkpoints.map Prod.fst).Nodup
  settled : settledOf state.record.checkpoints =
    settledOf state.saved.checkpoints ++ state.settles phase

theorem PhaseState.Runs.appends {Payload : Type} {state : PhaseState Payload}
    {run : PhaseRun Payload} {work : List (WorkItem Payload)}
    {durable : Option ReviewProgress} {session : Session Payload}
    {closing : Closing Payload} (runs : state.Runs run work durable)
    (resumes : SchedulerState.Resumes run work state.progress.checkpoints)
    (saving : state.scheduler.control = .saving session closing) :
    state.Appends run.phase := by
  have persisted := runs.reached.persisted
  simp only [SchedulerState.Persisted, saving] at persisted
  obtain ⟨checkpoint, closed, checkpoints⟩ := persisted
  have absent := (runs.reached.extends_ resumes).unsaved session closing saving
  rw [Dict.set_eq_append checkpoint absent] at checkpoints
  rw [Dict.get?_eq_none_iff] at absent
  refine ⟨?_, ?_⟩
  · intro distinct
    simp only [PhaseState.record, checkpoints, List.map_append, List.map_cons,
      List.map_nil, List.nodup_append, List.nodup_singleton, List.mem_singleton]
    refine ⟨distinct, True.intro, ?_⟩
    rintro key member other rfl rfl
    exact absent member
  · simp only [PhaseState.record, PhaseState.saved, checkpoints, settledOf_append,
      PhaseState.settles, saving]
    by_cases whole : closing.status = .split
    · simp [settledOf, closed.status, whole]
    · simp [settledOf, closed.status, closed.phase, closed.usage, whole]

section Steps

variable {review : NativeReview} {backend : Backend} {event : EngineEvent}
  {source target : EngineState} {ledger : List Settlement}

/-- When a phase has returned, the backend has its checkpoints. -/
theorem PhaseState.Runs.checkpoints_returned {Payload : Type}
    {state : PhaseState Payload} {run : PhaseRun Payload}
    {work : List (WorkItem Payload)} {durable : Option ReviewProgress}
    (runs : state.Runs run work durable)
    (isOver : state.scheduler.control = .returned) :
    state.record.checkpoints = state.saved.checkpoints := by
  have persisted := runs.reached.persisted
  simp only [SchedulerState.Persisted, isOver] at persisted
  exact persisted

/-- The record that is being saved has the ledger and the leaf that is being
closed. -/
theorem itemised_saves (free : CollisionFree review.hash)
    (synced : Synced review source) (sound : RecordsSound review source)
    (itemised : Itemised ledger source) {progress : ReviewProgress}
    (saves : source.control.saves = some progress) :
    settledOf progress.checkpoints = ledger ++ source.control.settles ∧
      Priced progress := by
  have base := sound.base
  obtain ⟨durable, control⟩ := source
  unfold Synced at synced
  cases control with
  | opening attempt opened =>
      cases saves
      obtain ⟨nothing, fresh⟩ := synced
      rw [itemised.nothing nothing, fresh.checkpoints]
      refine ⟨rfl, ?_, ?_⟩
      · rw [fresh.checkpoints]
        exact List.nodup_nil
      · intro later
        exact absurd fresh.stage later
  | candidate phase =>
      obtain ⟨⟨session, closing, saving⟩, rfl⟩ := saves_eq_some saves
      obtain ⟨settled, priced⟩ := itemised.durable _ synced.saved
      have appends :=
        synced.toRuns.appends (Exploring.resumes free (base _ rfl)) saving
      refine ⟨?_, appends.distinct priced.distinct, ?_⟩
      · rw [← settled]
        exact appends.settled
      · intro later
        exact absurd synced.stage later
  | freezing phase manifest =>
      cases saves
      obtain ⟨exploring, frozen⟩ := synced
      obtain ⟨settled, priced⟩ := itemised.durable _ exploring.saved
      obtain ⟨results, found, stage, inputKey, checkpoints, usage, rest⟩ :=
        freeze_eq_ok frozen.frozen
      have same := exploring.toRuns.checkpoints_returned frozen.isOver
      rw [same] at checkpoints usage
      refine ⟨?_, ?_, ?_⟩
      · rw [checkpoints, settled]
        exact (List.append_nil ledger).symm
      · rw [checkpoints]
        exact priced.distinct
      · intro _
        rw [checkpoints, usage, checkpointUsage_eq]
  | verification phase =>
      obtain ⟨⟨session, closing, saving⟩, rfl⟩ := saves_eq_some saves
      obtain ⟨settled, priced⟩ := itemised.durable _ synced.saved
      have appends :=
        synced.toRuns.appends (Verifying.resumes free (base _ rfl)) saving
      refine ⟨?_, appends.distinct priced.distinct, ?_⟩
      · rw [← settled]
        exact appends.settled
      · intro later
        have others : usageIn .candidate (phase.settles .verification) = 0 := by
          unfold PhaseState.settles
          rw [saving]
          dsimp only
          split <;> rfl
        have settledRecord : settledOf phase.record.checkpoints =
            settledOf phase.saved.checkpoints ++ phase.settles .verification :=
          appends.settled
        rw [settledRecord, usageIn_append, others, add_zero]
        exact priced.frozen later
  | completing phase result =>
      cases saves
      obtain ⟨verifying, concluded⟩ := synced
      obtain ⟨settled, priced⟩ := itemised.durable _ verifying.saved
      have same := verifying.toRuns.checkpoints_returned concluded.isOver
      have later : phase.saved.phase ≠ .candidate := by
        change phase.progress.phase ≠ .candidate
        rw [verifying.stage]
        exact ProgressPhase.noConfusion
      dsimp only
      rw [same]
      refine ⟨settled.trans (List.append_nil ledger).symm, priced.distinct, ?_⟩
      intro _
      exact priced.frozen later
  | idle | recovering | loading attempt | readingLegacy attempt
  | counting phase result | returned result | raised error =>
      cases saves

theorem itemised_steps (free : CollisionFree review.hash)
    (synced : Synced review source) (sound : RecordsSound review source)
    (itemised : Itemised ledger source)
    (steps : EngineSteps review backend event source target) :
    Itemised (ledger ++ source.settles backend event) target := by
  unfold EngineState.settles
  rcases steps.durable with ⟨kept, same⟩ | ⟨stored, progress, saves, _, known⟩
  · rw [kept, if_neg Bool.false_ne_true, List.append_nil]
    exact ⟨same ▸ itemised.nothing, same ▸ itemised.durable⟩
  · rw [stored, if_pos rfl]
    refine ⟨?_, ?_⟩
    · intro nothing
      cases known.symm.trans nothing
    · intro other found
      cases known.symm.trans found
      exact itemised_saves free synced sound itemised saves

end Steps

/-- Through whatever crashes, the backend has the ledger of the run. -/
theorem itemised_run {review : NativeReview} {backend : Backend}
    {events : List EngineEvent} {state : EngineState} (free : CollisionFree review.hash)
    (ran : run (engineStep review backend) events {} = some state) :
    Itemised (settlements review backend events) state := by
  let account (ledger : List Settlement) (state : EngineState) : Prop :=
    (Synced review state ∧ RecordsSound review state) ∧ Itemised ledger state
  have begins : account [] {} := by
    refine ⟨⟨True.intro, ?_, ?_⟩, fun _ => rfl, ?_⟩
    · intro progress known
      cases known
    · intro progress base
      cases base
    · intro progress known
      cases known
  have holds : account ([] ++ settlements review backend events) state := by
    refine run_records ?_ begins ran
    rintro event source target ledger ⟨⟨synced, sound⟩, itemised⟩ stepped
    have steps := EngineSteps.of_step stepped
    exact
      ⟨⟨synced_steps synced steps, recordsSound_steps free synced sound steps⟩,
        itemised_steps free synced sound itemised steps⟩
  exact holds.2

/-- Whether a run of the scheduler waits for its own save, or has returned and leaves
the next save to the engine. -/
def savesProgress {Payload : Type} (state : SchedulerState Payload) : Prop :=
  match state.control with
  | .saving _ _ | .returned => True
  | _ => False

/-- At a save the budget of a phase is what it started from, and what the sessions it
has settled, the live ones and the split ones have used. -/
theorem usage_at_save {Payload : Type} {phaseRun : PhaseRun Payload}
    {work : List (WorkItem Payload)} {base : Usage}
    {checkpoints : Dict String WorkCheckpoint} {replies : List Reply}
    {state : SchedulerState Payload}
    (ran :
      run (SchedulerState.step phaseRun) replies
          (SchedulerState.start work base checkpoints) =
        some state)
    (saves : savesProgress state) :
    let closed :=
      SchedulerState.closings phaseRun replies
        (SchedulerState.start work base checkpoints)
    state.usage =
      base + usageOf (SchedulerState.settledSessions closed) +
          usageOf state.active +
        usageOf (SchedulerState.splitSessions closed) := by
  intro closed
  have balanced := SchedulerState.balanced_run ran
  have inHand : SchedulerState.sessionInHand state.control = [] ∧
      ∀ error, state.control ≠ .raised error := by
    unfold savesProgress at saves
    split at saves
    · rename_i stands
      rw [stands]
      exact ⟨rfl, fun _ same => nomatch same⟩
    · rename_i stands
      rw [stands]
      exact ⟨rfl, fun _ same => nomatch same⟩
    · exact saves.elim
  rcases balanced with ⟨error, stands⟩ | ⟨balance, _⟩
  · exact absurd stands (inHand.2 error)
  · rw [balance, inHand.1, usageOf_nil, add_zero, SchedulerState.usageOf_closings]
    ac_rfl

/-- A resumed phase starts with what the leaves of the record have used, each of them
once, and in the verification phase with the frozen charges of the candidates. -/
theorem usage_at_resume {review : NativeReview} {backend : Backend}
    {events : List EngineEvent} {attempt : Attempt} {state resumed : EngineState}
    (free : CollisionFree review.hash)
    (ran : run (engineStep review backend) events {} = some state)
    (loads : state.control = .loading attempt)
    (stepped : engineStep review backend .loaded state = some resumed) :
    let ledger := settlements review backend events
    (ledger.map Settlement.key).Nodup ∧
      (∀ progress, state.durable = some progress →
        settledOf progress.checkpoints = ledger) ∧
      (∀ phase, resumed.control.exploring = some phase →
        phase.scheduler =
          .start review.candidateItems (usageIn .candidate ledger)
            phase.progress.checkpoints) ∧
      ∀ phase, resumed.control.verifying = some phase →
        phase.progress.candidateUsage = usageIn .candidate ledger ∧
          phase.scheduler =
            .start (review.verificationItems phase.progress)
              (phase.progress.candidateUsage + usageIn .verification ledger)
              phase.progress.checkpoints := by
  intro ledger
  have itemised : Itemised ledger state := itemised_run free ran
  simp only [engineStep, loads] at stepped
  cases known : state.durable with
  | none =>
      rw [known] at stepped
      cases stepped
      rw [itemised.nothing known]
      refine ⟨List.nodup_nil, ?_, ?_, ?_⟩
      · intro progress found
        cases found
      · intro phase exploring
        cases exploring
      · intro phase verifying
        cases verifying
  | some progress =>
      obtain ⟨settled, priced⟩ := itemised.durable progress known
      rw [known] at stepped
      cases stepped
      refine ⟨?_, ?_, ?_, ?_⟩
      · rw [← settled]
        exact (keys_settledOf progress.checkpoints).nodup priced.distinct
      · rintro other ⟨⟩
        exact settled
      · intro phase exploring
        unfold resume beginVerification at exploring
        cases stage : progress.phase with
        | candidate =>
            rw [stage] at exploring
            cases exploring
            simp only [resumedUsage, stage, checkpointUsage_eq, settled]
        | verification =>
            rw [stage] at exploring
            cases exploring
        | complete =>
            rw [stage] at exploring
            cases finished : progress.result <;> rw [finished] at exploring <;>
              cases exploring
      · intro phase verifying
        unfold resume beginVerification at verifying
        cases stage : progress.phase with
        | candidate =>
            rw [stage] at verifying
            cases verifying
        | verification =>
            have later : progress.phase ≠ .candidate := by
              rw [stage]
              exact ProgressPhase.noConfusion
            rw [stage] at verifying
            cases verifying
            refine ⟨?_, ?_⟩
            · rw [← settled]
              exact priced.frozen later
            · simp only [resumedUsage, stage, checkpointUsage_eq, settled]
        | complete =>
            rw [stage] at verifying
            cases finished : progress.result <;> rw [finished] at verifying <;>
              cases verifying

/-- The usage ledger is exact: at every save of a phase, and at every resumption
after whatever crashes. -/
theorem usage_exact {review : NativeReview} {backend : Backend}
    (free : CollisionFree review.hash) :
    (∀ {Payload : Type} (phaseRun : PhaseRun Payload) (work : List (WorkItem Payload))
        (base : Usage) (checkpoints : Dict String WorkCheckpoint)
        (replies : List Reply) (state : SchedulerState Payload),
      run (SchedulerState.step phaseRun) replies
          (SchedulerState.start work base checkpoints) =
        some state →
      savesProgress state →
        let closed :=
          SchedulerState.closings phaseRun replies
            (SchedulerState.start work base checkpoints)
        state.usage =
          base + usageOf (SchedulerState.settledSessions closed) +
              usageOf state.active +
            usageOf (SchedulerState.splitSessions closed)) ∧
      ∀ (events : List EngineEvent) (attempt : Attempt) (state resumed : EngineState),
        run (engineStep review backend) events {} = some state →
        state.control = .loading attempt →
        engineStep review backend .loaded state = some resumed →
          let ledger := settlements review backend events
          (ledger.map Settlement.key).Nodup ∧
            (∀ progress, state.durable = some progress →
              settledOf progress.checkpoints = ledger) ∧
            (∀ phase, resumed.control.exploring = some phase →
              phase.scheduler =
                .start review.candidateItems (usageIn .candidate ledger)
                  phase.progress.checkpoints) ∧
            ∀ phase, resumed.control.verifying = some phase →
              phase.progress.candidateUsage = usageIn .candidate ledger ∧
                phase.scheduler =
                  .start (review.verificationItems phase.progress)
                    (phase.progress.candidateUsage + usageIn .verification ledger)
                    phase.progress.checkpoints := by
  constructor
  · intro Payload phaseRun work base checkpoints replies state ran saves
    exact usage_at_save ran saves
  · intro events attempt state resumed ran loads stepped
    exact usage_at_resume free ran loads stepped

/-- The sample review crashes once its one chunk is done, and goes on with one call
charged. -/
theorem usage_exact_crashed :
    ∃ state resumed phase,
      run (engineStep sampleReview memoryBackend)
          (.review sampleAttempt ::
            (openedReview ++ answeredPhase.take 8 ++
              [.crash false, .review sampleAttempt])) {} = some state ∧
        engineStep sampleReview memoryBackend .loaded state = some resumed ∧
        resumed.control.exploring = some phase ∧
        phase.scheduler =
          .start sampleReview.candidateItems
            (usageIn .candidate
              (settlements sampleReview memoryBackend
                (.review sampleAttempt ::
                  (openedReview ++ answeredPhase.take 8 ++
                    [.crash false, .review sampleAttempt]))))
            phase.progress.checkpoints ∧
        phase.scheduler.usage.llmCalls = 1 := by
  have answered :
      ((run (engineStep sampleReview memoryBackend)
          (.review sampleAttempt ::
            (openedReview ++ answeredPhase.take 8 ++
              [.crash false, .review sampleAttempt])) {}).bind fun state =>
        match state.control with
        | .loading _ =>
            (engineStep sampleReview memoryBackend .loaded state).bind fun resumed =>
              resumed.control.exploring.map fun phase =>
                phase.scheduler.usage.llmCalls
        | _ => none) =
        some 1 := by
    decide +kernel
  obtain ⟨state, ran, found⟩ := Option.bind_eq_some_iff.mp answered
  split at found
  · rename_i attempt loads
    obtain ⟨resumed, stepped, found⟩ := Option.bind_eq_some_iff.mp found
    obtain ⟨phase, exploring, one⟩ := Option.map_eq_some_iff.mp found
    have resumes :=
      (usage_exact collisionFree_sampleHash).2 _ attempt state resumed ran loads
        stepped
    exact
      ⟨state, resumed, phase, ran, stepped, exploring,
        resumes.2.2.1 phase exploring, one⟩
  · cases found

end PeReview.Native
