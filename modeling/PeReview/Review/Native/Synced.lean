import PeReview.Review.Anchors
import PeReview.Review.Native.Steps

/-!
# The engine and its record

While a phase runs, the record in the backend is the one the phase began with, with
the checkpoints of the last acknowledged save.
-/

namespace PeReview.Native

open PeReview.Data PeReview.Process PeReview.Scheduling

/-- The record in the backend while a phase runs. -/
def PhaseState.saved {Payload : Type} (phase : PhaseState Payload) : ReviewProgress :=
  { phase.progress with checkpoints := phase.scheduler.saved }

/-- A phase works on its work list, from its record, and the backend has what it has
saved. -/
structure PhaseState.Runs {Payload : Type} (phase : PhaseState Payload)
    (run : PhaseRun Payload) (work : List (WorkItem Payload))
    (durable : Option ReviewProgress) : Prop where
  reached :
    SchedulerState.Reached run work phase.started phase.progress.checkpoints
      phase.scheduler
  saved : durable = some phase.saved

structure Exploring (review : NativeReview) (durable : Option ReviewProgress)
    (phase : PhaseState DiffChunk) : Prop
    extends phase.Runs (review.candidateRun phase.attempt) review.candidateItems
      durable where
  stage : phase.progress.phase = .candidate

structure Verifying (review : NativeReview) (durable : Option ReviewProgress)
    (phase : PhaseState (List Finding)) : Prop
    extends
      phase.Runs (review.verificationRun phase.attempt phase.progress)
        (review.verificationItems phase.progress) durable where
  stage : phase.progress.phase = .verification

/-- A result is what a verification phase that has returned concludes. -/
structure Concluded (review : NativeReview) (phase : PhaseState (List Finding))
    (result : ReviewResult) : Prop where
  isOver : phase.scheduler.control = .returned
  concluded : ∃ (conclusion : ReviewResult) (totals : Option InvocationTotals),
    conclude review phase.attempt.worktree phase.record phase.scheduler.outcome
        phase.scheduler.usage = .ok conclusion ∧
      result =
        { conclusion with
          reviewMetadata := { conclusion.reviewMetadata with actualUsage := totals } }

/-- A manifest is what a candidate phase that has returned freezes. -/
structure Frozen (review : NativeReview) (phase : PhaseState DiffChunk)
    (manifest : ReviewProgress) : Prop where
  isOver : phase.scheduler.control = .returned
  frozen : freeze review phase.record phase.scheduler.outcome = .ok manifest

structure Fresh (review : NativeReview) (progress : ReviewProgress) : Prop where
  inputKey : progress.inputKey = review.inputKey
  stage : progress.phase = .candidate
  checkpoints : progress.checkpoints = []

/-- What the engine and the backend agree on. -/
def Synced (review : NativeReview) (state : EngineState) : Prop :=
  match state.control with
  | .idle | .recovering | .loading _ | .raised _ | .returned none => True
  | .readingLegacy _ => state.durable = none
  | .opening _ progress => state.durable = none ∧ Fresh review progress
  | .candidate phase => Exploring review state.durable phase
  | .freezing phase manifest =>
      Exploring review state.durable phase ∧ Frozen review phase manifest
  | .verification phase => Verifying review state.durable phase
  | .counting phase result | .completing phase result =>
      Verifying review state.durable phase ∧ Concluded review phase result
  | .returned (some result) =>
      result = skipResult review ∨
        ∃ progress, state.durable = some progress ∧ progress.phase = .complete ∧
          progress.result = some result

/-- Only the acknowledgement of a checkpoint changes what has been saved. -/
theorem saved_steps {Payload : Type} {run : PhaseRun Payload}
    {source target : SchedulerState Payload}
    (working : ∀ session closing, source.control ≠ .saving session closing)
    (steps : SchedulerState.Steps run source target) :
    target.saved = source.saved := by
  cases steps with
  | saved session closing stands =>
      exact absurd stands (working session closing)
  | keepResult session call key text stands =>
      unfold SchedulerState.keepToolResult
      dsimp only
      split <;> rfl
  | _ =>
      rfl

theorem freeze_eq_ok {review : NativeReview} {progress manifest : ReviewProgress}
    {outcome : PhaseResult DiffChunk}
    (frozen : freeze review progress outcome = .ok manifest) :
    ∃ results,
      (outcome.completed.mapM fun item => resultOf progress.checkpoints item.key) =
          .ok results ∧
        manifest.phase = .verification ∧
        manifest.inputKey = progress.inputKey ∧
        manifest.checkpoints = progress.checkpoints ∧
        manifest.candidateUsage = checkpointUsage .candidate progress.checkpoints ∧
        manifest.coverage =
          coverage review.context (outcome.completed.map WorkItem.payload)
            (outcome.pending.map WorkItem.payload) ∧
        ∃ selected, manifest.frozenCandidates =
          includePreviousCandidates selected review.context.previousFindings := by
  unfold freeze at frozen
  obtain ⟨results, found, same⟩ := Except.bind_eq_ok.mp frozen
  cases same
  exact ⟨results, found, rfl, rfl, rfl, rfl, rfl, _, rfl⟩

section Steps

variable {review : NativeReview} {backend : Backend} {event : EngineEvent}
  {source target : EngineState}

theorem exploring_start (attempt : Attempt) {progress : ReviewProgress}
    (stage : progress.phase = .candidate) :
    Exploring review (some progress)
      { attempt
        progress
        started := resumedUsage progress
        scheduler :=
          .start review.candidateItems (resumedUsage progress)
            progress.checkpoints } where
  reached := Reachable.start rfl
  saved := rfl
  stage := stage

theorem verifying_start (attempt : Attempt) (usage : Usage)
    {progress : ReviewProgress} (stage : progress.phase = .verification) :
    Verifying review (some progress)
      { attempt
        progress
        started := usage
        scheduler :=
          .start (review.verificationItems progress) usage
            progress.checkpoints } where
  reached := Reachable.start rfl
  saved := rfl
  stage := stage

/-- The engine goes on with a record that is not complete. -/
theorem synced_resume (attempt : Attempt) {progress : ReviewProgress}
    (phase : progress.phase ≠ .complete) :
    Synced review
      { durable := some progress, control := resume review attempt progress } := by
  unfold resume
  cases stage : progress.phase with
  | complete =>
      exact absurd stage phase
  | candidate =>
      exact exploring_start attempt stage
  | verification =>
      exact verifying_start attempt _ stage

/-- A step of a scheduler that saves nothing. -/
theorem PhaseState.Runs.step {Payload : Type} {phase : PhaseState Payload}
    {run : PhaseRun Payload} {work : List (WorkItem Payload)}
    {durable : Option ReviewProgress} {reply : Reply}
    {scheduler : SchedulerState Payload} (runs : phase.Runs run work durable)
    (stepped : SchedulerState.step run reply phase.scheduler = some scheduler)
    (working : ∀ session closing,
      phase.scheduler.control ≠ .saving session closing) :
    ({ phase with scheduler } : PhaseState Payload).Runs run work durable where
  reached := runs.reached.next stepped
  saved := by
    rw [runs.saved]
    simp only [PhaseState.saved, saved_steps working (.of_step stepped)]

/-- The acknowledgement of a checkpoint. -/
theorem PhaseState.Runs.save {Payload : Type} {phase : PhaseState Payload}
    {run : PhaseRun Payload} {work : List (WorkItem Payload)}
    {durable : Option ReviewProgress} {session : Session Payload}
    {closing : Closing Payload} (runs : phase.Runs run work durable)
    (saving : phase.scheduler.control = .saving session closing) :
    ({ phase with scheduler := phase.scheduler.saveDone run session closing } :
      PhaseState Payload).Runs run work (some phase.record) where
  reached := by
    have stepped :
        SchedulerState.step run .acknowledged phase.scheduler =
          some (phase.scheduler.saveDone run session closing) := by
      unfold SchedulerState.step
      rw [saving]
    exact runs.reached.next stepped
  saved := by
    cases closing <;> rfl

theorem synced_steps (synced : Synced review source)
    (steps : EngineSteps review backend event source target) :
    Synced review target := by
  cases steps with
  | stop control silent kept
  | lose progress control saves accepted silent stored =>
      unfold EngineControl.isSilent at silent
      split at silent
      · exact True.intro
      · exact True.intro
      · exact True.intro
      · exact .inl silent
      · exact silent.elim
  | recover idle kept | load attempt called idle kept =>
      exact True.intro
  | readLegacy attempt stands nothing kept =>
      exact nothing
  | promote progress result known phase finished kept =>
      exact .inr ⟨progress, known, phase, finished⟩
  | open_ attempt present usage stands kept =>
      simp only [Synced, stands] at synced
      exact ⟨synced, rfl, rfl, rfl⟩
  | resume attempt progress stands known phase kept =>
      have resumed :
          Synced review
            { durable := some progress, control := resume review attempt progress } :=
        synced_resume attempt phase
      rw [← known] at resumed
      exact resumed
  | opened attempt progress stands accepted stored =>
      simp only [Synced, stands] at synced
      refine synced_resume attempt ?_
      rw [synced.2.stage]
      exact ProgressPhase.noConfusion
  | explore phase reply scheduler stands stepped working loops running kept =>
      simp only [Synced, stands] at synced
      exact ⟨synced.toRuns.step stepped working, synced.stage⟩
  | exploreSaved phase session closing stands saving accepted stored =>
      simp only [Synced, stands] at synced
      exact ⟨synced.toRuns.save saving, synced.stage⟩
  | freeze phase reply scheduler manifest stands stepped isOver frozen kept =>
      simp only [Synced, stands] at synced
      have working : ∀ session closing,
          phase.scheduler.control ≠ .saving session closing := by
        intro session closing saving
        rcases step_saving stepped saving with ⟨_, rfl⟩ | ⟨message, _, rfl⟩
        · cases closing <;> cases isOver
        · cases isOver
      exact ⟨⟨synced.toRuns.step stepped working, synced.stage⟩, isOver, frozen⟩
  | frozen phase manifest stands accepted stored =>
      simp only [Synced, stands] at synced
      obtain ⟨results, found, stage, rest⟩ := freeze_eq_ok synced.2.frozen
      exact verifying_start phase.attempt _ stage
  | verify phase reply scheduler stands stepped working loops running kept =>
      simp only [Synced, stands] at synced
      exact ⟨synced.toRuns.step stepped working, synced.stage⟩
  | verifySaved phase session closing stands saving accepted stored =>
      simp only [Synced, stands] at synced
      exact ⟨synced.toRuns.save saving, synced.stage⟩
  | conclude phase reply scheduler result stands stepped isOver concluded kept =>
      simp only [Synced, stands] at synced
      have working : ∀ session closing,
          phase.scheduler.control ≠ .saving session closing := by
        intro session closing saving
        rcases step_saving stepped saving with ⟨_, rfl⟩ | ⟨message, _, rfl⟩
        · cases closing <;> cases isOver
        · cases isOver
      exact
        ⟨⟨synced.toRuns.step stepped working, synced.stage⟩, isOver, result, _,
          concluded, rfl⟩
  | count phase result totals stands kept =>
      simp only [Synced, stands] at synced
      obtain ⟨verifying, isOver, conclusion, _, concluded, rfl⟩ := synced
      exact ⟨verifying, isOver, conclusion, some totals, concluded, rfl⟩
  | complete phase result progress stands saves accepted stored =>
      rw [stands] at saves
      cases saves
      exact .inr ⟨_, rfl, rfl, rfl⟩

end Steps

/-- The states an engine can get into that starts without saved progress. -/
def EngineReached (review : NativeReview) (backend : Backend) (state : EngineState) :
    Prop :=
  Reachable (engineStep review backend) (fun first => first = {}) state

/-- The induction rule of an engine. -/
theorem EngineReached.invariant {review : NativeReview} {backend : Backend}
    {kept : EngineState → Prop} (base : kept {})
    (preserved : ∀ event source target, Synced review source → kept source →
      EngineSteps review backend event source target → kept target)
    {state : EngineState} (reached : EngineReached review backend state) :
    Synced review state ∧ kept state := by
  let both (state : EngineState) : Prop := Synced review state ∧ kept state
  have holds : both state := by
    refine Reachable.invariant ?_ ?_ reached
    · rintro first rfl
      exact ⟨True.intro, base⟩
    · rintro event source target ⟨synced, holds⟩ stepped
      have steps := EngineSteps.of_step stepped
      exact ⟨synced_steps synced steps, preserved _ _ _ synced holds steps⟩
  exact holds

/-- The place of a work item as a text of its own. -/
def sampleIdentity : WorkIdentity → List Char
  | .initial index => 'i' :: List.replicate index '1'
  | .verification index => 'v' :: List.replicate index '1'
  | .split parent index =>
      's' :: (List.replicate index '1' ++ '.' :: parent.toList)

/-- Keys that spell out the places of the items. -/
def sampleHash : WorkHash
  | .chunk identity _ _ => String.ofList ('c' :: sampleIdentity identity)
  | .batch identity _ => String.ofList ('b' :: sampleIdentity identity)

/-- A review of the sample change, under a model whose answers are summaries: it
reports a defect and confirms what it is asked about. -/
def sampleReview : NativeReview where
  context := { sampleContext with diff := ['+', 'b'] }
  settings := {}
  model := "model"
  inputKey := "key"
  hash := sampleHash
  digest := sampleDigest
  jsonLength _ := 100
  casefold text := text
  candidateMessages _ := []
  verificationMessages _ _ := []
  parseCandidateReview _ content :=
    .ok { summary := content, findings := [sampleFinding 2 none] }
  parseVerificationReview _ content :=
    .ok { summary := content, findings := sampleAnswer }
  toolCallKey call := .ok call.name
  toolResultFailed _ := false
  chunkRoom := by decide

def sampleAttempt : Attempt where
  limits := {}
  worktree := sampleWorktree

/-- A phase with one work item, which the model answers at once. -/
def answeredPhase : List EngineEvent :=
  [.phase .proceed false, .phase .proceed false, .phase .proceed false,
    .phase .proceed false, .phase .acknowledged false,
    .phase (.completed (.ok { content := "fine" })) false,
    .phase .acknowledged false, .phase .acknowledged false, .phase .proceed false]

def openedReview : List EngineEvent :=
  [.loaded, .legacy false {}, .acknowledged]

def answeredReview : List EngineEvent :=
  openedReview ++ answeredPhase ++ .acknowledged :: answeredPhase ++
    [.totals {}, .acknowledged]

end PeReview.Native
