import PeReview.Review.Native.Synced
import PeReview.Review.Scheduling.Budget

/-!
# The budget of a review

A review that starts without saved progress charges the candidate phase with at most
what the reserve leaves, and both phases together with at most the limits.
-/

namespace PeReview.Native

open PeReview.Data PeReview.Process PeReview.Scheduling

/-- `math.ceil(limit * verifier_budget_fraction)`. -/
def verifierReserve (limits : ReviewLimits) (limit : Nat) : Nat :=
  (limit * limits.verifierBudgetFraction).ceil.toNat

/-- The charges of a phase while it runs. -/
structure Afforded {Payload : Type} (run : PhaseRun Payload)
    (work : List (WorkItem Payload)) (phase : PhaseState Payload) : Prop where
  started : run.Within phase.started
  reached :
    SchedulerState.Reached run work phase.started phase.progress.checkpoints
      phase.scheduler

theorem Afforded.within {Payload : Type} {run : PhaseRun Payload}
    {work : List (WorkItem Payload)} {phase : PhaseState Payload}
    (afforded : Afforded run work phase) : run.Within phase.scheduler.usage :=
  afforded.reached.within afforded.started

/-- The charges of the one attempt that has been started. -/
def Budgeted (review : NativeReview) (attempt : Attempt) (state : EngineState) :
    Prop :=
  match state.control with
  | .loading other => other = attempt ∧ state.durable = none
  | .readingLegacy other => other = attempt
  | .opening other progress =>
      other = attempt ∧ Fresh review progress
  | .candidate phase | .freezing phase _ =>
      phase.attempt = attempt ∧
        Afforded (review.candidateRun attempt) review.candidateItems phase
  | .verification phase | .counting phase _ | .completing phase _ =>
      phase.attempt = attempt ∧
        (review.candidateRun attempt).Within phase.started ∧
        Afforded (review.verificationRun attempt phase.progress)
          (review.verificationItems phase.progress) phase
  | .idle | .recovering | .raised _ | .returned _ => True

/-- Nothing has been charged yet. -/
theorem within_zero {Payload : Type} (run : PhaseRun Payload) : run.Within 0 where
  calls := Nat.zero_le _
  tools := Nat.zero_le _

/-- What the candidate phase may be charged with, the verification phase may be
charged with as well. -/
theorem within_verification {review : NativeReview} {attempt : Attempt}
    {progress : ReviewProgress} {usage : Usage}
    (within : (review.candidateRun attempt).Within usage) :
    (review.verificationRun attempt progress).Within usage where
  calls := within.calls.trans (Nat.sub_le_sub_left (Nat.zero_le _) _)
  tools := within.tools.trans (Nat.sub_le_sub_left (Nat.zero_le _) _)

theorem resumedUsage_fresh {review : NativeReview} {progress : ReviewProgress}
    (fresh : Fresh review progress) : resumedUsage progress = 0 := by
  unfold resumedUsage
  rw [fresh.stage, fresh.checkpoints]
  rfl

theorem budgeted_steps {review : NativeReview} {backend : Backend}
    {event : EngineEvent} {attempt : Attempt} {source target : EngineState}
    (again : ∀ other, event ≠ .review other) (synced : Synced review source)
    (budgeted : Budgeted review attempt source)
    (steps : EngineSteps review backend event source target) :
    Budgeted review attempt target := by
  cases steps with
  | stop control silent kept
  | lose progress control saves accepted silent stored =>
      unfold EngineControl.isSilent at silent
      split at silent
      · exact True.intro
      · exact True.intro
      · exact True.intro
      · exact True.intro
      · exact silent.elim
  | recover idle kept | promote progress result known phase finished kept
  | complete phase result progress stands saves accepted stored =>
      exact True.intro
  | load other called idle kept =>
      exact absurd called (again other)
  | readLegacy other stands nothing kept =>
      simp only [Budgeted, stands] at budgeted
      exact budgeted.1
  | open_ other present usage stands kept =>
      simp only [Budgeted, stands] at budgeted
      exact ⟨budgeted, rfl, rfl, rfl⟩
  | resume other progress stands known phase kept =>
      simp only [Budgeted, stands] at budgeted
      rw [budgeted.2] at known
      cases known
  | opened other progress stands accepted stored =>
      simp only [Budgeted, stands] at budgeted
      obtain ⟨rfl, fresh⟩ := budgeted
      unfold resume
      rw [fresh.stage]
      refine ⟨rfl, ?_, Reachable.start rfl⟩
      simp only [resumedUsage_fresh fresh]
      exact within_zero _
  | explore phase reply scheduler stands stepped working loops running kept
  | freeze phase reply scheduler manifest stands stepped isOver frozen kept =>
      simp only [Budgeted, stands] at budgeted
      obtain ⟨rfl, started, reached⟩ := budgeted
      exact ⟨rfl, started, reached.next stepped⟩
  | exploreSaved phase session closing stands saving accepted stored =>
      simp only [Budgeted, stands] at budgeted
      simp only [Synced, stands] at synced
      obtain ⟨rfl, started, _⟩ := budgeted
      exact ⟨rfl, started, (synced.toRuns.save saving).reached⟩
  | frozen phase manifest stands accepted stored =>
      simp only [Budgeted, stands] at budgeted
      obtain ⟨rfl, afforded⟩ := budgeted
      exact
        ⟨rfl, afforded.within, within_verification afforded.within,
          Reachable.start rfl⟩
  | verify phase reply scheduler stands stepped working loops running kept
  | conclude phase reply scheduler result stands stepped isOver concluded kept =>
      simp only [Budgeted, stands] at budgeted
      obtain ⟨rfl, reserve, started, reached⟩ := budgeted
      exact ⟨rfl, reserve, started, reached.next stepped⟩
  | verifySaved phase session closing stands saving accepted stored =>
      simp only [Budgeted, stands] at budgeted
      simp only [Synced, stands] at synced
      obtain ⟨rfl, reserve, started, _⟩ := budgeted
      exact ⟨rfl, reserve, started, (synced.toRuns.save saving).reached⟩
  | count phase result totals stands kept =>
      simp only [Budgeted, stands] at budgeted
      exact budgeted

def EngineControl.exploring : EngineControl → Option (PhaseState DiffChunk)
  | .candidate phase | .freezing phase _ => some phase
  | _ => none

def EngineControl.verifying : EngineControl → Option (PhaseState (List Finding))
  | .verification phase | .counting phase _ | .completing phase _ => some phase
  | _ => none

theorem budgeted_run {review : NativeReview} {backend : Backend} {attempt : Attempt}
    {events : List EngineEvent} {state : EngineState}
    (single : ∀ event ∈ events, ∀ other, event ≠ .review other)
    (ran :
      run (engineStep review backend) (.review attempt :: events) {} = some state) :
    Budgeted review attempt state := by
  obtain ⟨first, called, remaining⟩ := run_cons_eq_some.mp ran
  let both (state : EngineState) : Prop :=
    Synced review state ∧ Budgeted review attempt state
  have begins : both first := by
    cases called
    split
    · exact ⟨.inl rfl, True.intro⟩
    · exact ⟨True.intro, rfl, rfl⟩
  have holds : both state := by
    refine run_preserves ?_ begins remaining
    rintro event member source target ⟨synced, budgeted⟩ stepped
    have steps := EngineSteps.of_step stepped
    exact
      ⟨synced_steps synced steps,
        budgeted_steps (single event member) synced budgeted steps⟩
  exact holds.2

/-- Of a review started without saved progress, the candidate phase never charges
what is reserved for the verifier, the verifier finds its reserve untouched, and
both phases stay within the limits. -/
theorem budget_capped {review : NativeReview} {backend : Backend} {attempt : Attempt}
    {events : List EngineEvent} {state : EngineState}
    (single : ∀ event ∈ events, ∀ other, event ≠ .review other)
    (ran :
      run (engineStep review backend) (.review attempt :: events) {} = some state) :
    let limits := attempt.limits
    let calls := limits.maxLlmCallsPerJob
    let tools := limits.maxToolCallsPerJob
    (∀ phase, state.control.exploring = some phase →
        phase.scheduler.usage.llmCalls ≤ calls - verifierReserve limits calls ∧
          phase.scheduler.usage.toolCalls ≤ tools - verifierReserve limits tools) ∧
      ∀ phase, state.control.verifying = some phase →
        phase.started.llmCalls + verifierReserve limits calls ≤ calls ∧
          phase.started.toolCalls + verifierReserve limits tools ≤ tools ∧
          phase.scheduler.usage.llmCalls ≤ calls ∧
          phase.scheduler.usage.toolCalls ≤ tools := by
  have budgeted := budgeted_run single ran
  constructor
  · intro phase exploring
    have afforded :
        Afforded (review.candidateRun attempt) review.candidateItems phase := by
      unfold Budgeted at budgeted
      generalize state.control = control at exploring budgeted
      cases control <;> cases exploring <;> exact budgeted.2
    exact ⟨afforded.within.calls, afforded.within.tools⟩
  · intro phase verifying
    have charged :
        (review.candidateRun attempt).Within phase.started ∧
          Afforded (review.verificationRun attempt phase.progress)
            (review.verificationItems phase.progress) phase := by
      unfold Budgeted at budgeted
      generalize state.control = control at verifying budgeted
      cases control <;> cases verifying <;> exact budgeted.2
    obtain ⟨reserve, afforded⟩ := charged
    have callReserve :
        verifierReserve attempt.limits attempt.limits.maxLlmCallsPerJob ≤
          attempt.limits.maxLlmCallsPerJob :=
      attempt.limits.reserve_le .candidate _
    have toolReserve :
        verifierReserve attempt.limits attempt.limits.maxToolCallsPerJob ≤
          attempt.limits.maxToolCallsPerJob :=
      attempt.limits.reserve_le .candidate _
    have callsStarted : phase.started.llmCalls ≤
        attempt.limits.maxLlmCallsPerJob -
          verifierReserve attempt.limits attempt.limits.maxLlmCallsPerJob :=
      reserve.calls
    have toolsStarted : phase.started.toolCalls ≤
        attempt.limits.maxToolCallsPerJob -
          verifierReserve attempt.limits attempt.limits.maxToolCallsPerJob :=
      reserve.tools
    have callsUsed : phase.scheduler.usage.llmCalls ≤
        attempt.limits.maxLlmCallsPerJob - 0 :=
      afforded.within.calls
    have toolsUsed : phase.scheduler.usage.toolCalls ≤
        attempt.limits.maxToolCallsPerJob - 0 :=
      afforded.within.tools
    omega

/-- A review that may call the model twice. -/
def tightAttempt : Attempt :=
  { sampleAttempt with limits := { maxLlmCallsPerJob := 2 } }

/-- The candidate phase has made one call, and the verifier one more. -/
def spentCalls : List EngineEvent :=
  openedReview ++ answeredPhase ++ .acknowledged :: answeredPhase.take 5

/-- One call is left to the verifier, and it takes the last one there is. -/
theorem budget_capped_spent :
    ∃ state phase,
      run (engineStep sampleReview memoryBackend) (.review tightAttempt :: spentCalls) {} =
          some state ∧
        state.control.verifying = some phase ∧
        phase.started.llmCalls = 1 ∧
        phase.scheduler.usage.llmCalls = 2 ∧
        phase.started.llmCalls + verifierReserve { maxLlmCallsPerJob := 2 } 2 ≤ 2 ∧
        phase.scheduler.usage.llmCalls ≤ 2 := by
  have asked :
      ((run (engineStep sampleReview memoryBackend) (.review tightAttempt :: spentCalls)
          {}).bind fun state =>
        state.control.verifying.map fun phase =>
          (phase.started.llmCalls, phase.scheduler.usage.llmCalls)) =
        some (1, 2) := by
    decide +kernel
  obtain ⟨state, ran, found⟩ := Option.bind_eq_some_iff.mp asked
  obtain ⟨phase, verifying, calls⟩ := Option.map_eq_some_iff.mp found
  obtain ⟨one, two⟩ := Prod.mk.inj calls
  have single : ∀ event ∈ spentCalls, ∀ other, event ≠ .review other := by
    intro event member other same
    subst same
    simp [spentCalls, openedReview, answeredPhase] at member
  have capped := (budget_capped single ran).2 phase verifying
  exact ⟨state, phase, ran, verifying, one, two, capped.1, capped.2.2.1⟩

end PeReview.Native
