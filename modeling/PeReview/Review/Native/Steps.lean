import PeReview.Review.Native.Engine

/-!
# What a step of the engine can do

The transition function of the engine inverted once: a step leaves the record in the
backend alone, or it commits the record that is being saved.
-/

namespace PeReview.Native

open PeReview.Data PeReview.Process PeReview.Scheduling

/-- A control at which the engine has nothing to do and nothing to show. -/
def EngineControl.isSilent (review : NativeReview) : EngineControl → Prop
  | .idle | .raised _ | .returned none => True
  | .returned (some result) => result = skipResult review
  | _ => False

def EngineEvent.commits : EngineEvent → Bool
  | .acknowledged | .phase .acknowledged _ => true
  | .crash committed | .backendFailed _ committed
  | .phase (.backendFailed _) committed => committed
  | _ => false

def EngineState.stores (backend : Backend) (event : EngineEvent)
    (state : EngineState) : Bool :=
  event.commits &&
    match state.control.saves with
    | none => false
    | some progress => backend state.durable progress

inductive EngineSteps (review : NativeReview) (backend : Backend)
    (event : EngineEvent) (source : EngineState) : EngineState → Prop
  /-- A call ends without a result, or with that of a change there is nothing to
  review of. -/
  | stop (control : EngineControl) (silent : control.isSilent review)
      (kept : source.stores backend event = false) :
      EngineSteps review backend event source { source with control }
  /-- So does a call whose save the backend has committed all the same. -/
  | lose (progress : ReviewProgress) (control : EngineControl)
      (saves : source.control.saves = some progress)
      (accepted : backend source.durable progress)
      (silent : control.isSilent review)
      (stored : source.stores backend event = true) :
      EngineSteps review backend event source { durable := some progress, control }
  | recover (idle : source.control.isIdle)
      (kept : source.stores backend event = false) :
      EngineSteps review backend event source { source with control := .recovering }
  | load (attempt : Attempt) (called : event = .review attempt)
      (idle : source.control.isIdle)
      (kept : source.stores backend event = false) :
      EngineSteps review backend event source { source with control := .loading attempt }
  | readLegacy (attempt : Attempt) (stands : source.control = .loading attempt)
      (nothing : source.durable = none)
      (kept : source.stores backend event = false) :
      EngineSteps review backend event source
        { source with control := .readingLegacy attempt }
  /-- The result of an earlier call is returned. -/
  | promote (progress : ReviewProgress) (result : ReviewResult)
      (known : source.durable = some progress) (phase : progress.phase = .complete)
      (finished : progress.result = some result)
      (kept : source.stores backend event = false) :
      EngineSteps review backend event source
        { source with control := .returned (some result) }
  | open_ (attempt : Attempt) (present : Bool) (usage : Usage)
      (stands : source.control = .readingLegacy attempt)
      (kept : source.stores backend event = false) :
      EngineSteps review backend event source
        { source with
          control :=
            .opening attempt
              { inputKey := review.inputKey
                legacyPresent := present
                legacyUsage := usage } }
  | resume (attempt : Attempt) (progress : ReviewProgress)
      (stands : source.control = .loading attempt)
      (known : source.durable = some progress)
      (phase : progress.phase ≠ .complete)
      (kept : source.stores backend event = false) :
      EngineSteps review backend event source
        { source with control := resume review attempt progress }
  | opened (attempt : Attempt) (progress : ReviewProgress)
      (stands : source.control = .opening attempt progress)
      (accepted : backend source.durable progress)
      (stored : source.stores backend event = true) :
      EngineSteps review backend event source
        { durable := some progress, control := resume review attempt progress }
  | explore (phase : PhaseState DiffChunk) (reply : Reply)
      (scheduler : SchedulerState DiffChunk)
      (stands : source.control = .candidate phase)
      (stepped :
        SchedulerState.step (review.candidateRun phase.attempt) reply
          phase.scheduler = some scheduler)
      (working : ∀ session closing, phase.scheduler.control ≠ .saving session closing)
      (loops : scheduler.control ≠ .returned)
      (running : ∀ error, scheduler.control ≠ .raised error)
      (kept : source.stores backend event = false) :
      EngineSteps review backend event source
        { source with control := .candidate { phase with scheduler } }
  | exploreSaved (phase : PhaseState DiffChunk)
      (session : Session DiffChunk) (closing : Closing DiffChunk)
      (stands : source.control = .candidate phase)
      (saving : phase.scheduler.control = .saving session closing)
      (accepted : backend source.durable phase.record)
      (stored : source.stores backend event = true) :
      EngineSteps review backend event source
        { durable := some phase.record
          control :=
            .candidate
              { phase with
                scheduler :=
                  phase.scheduler.saveDone (review.candidateRun phase.attempt)
                    session closing } }
  | freeze (phase : PhaseState DiffChunk) (reply : Reply)
      (scheduler : SchedulerState DiffChunk) (manifest : ReviewProgress)
      (stands : source.control = .candidate phase)
      (stepped :
        SchedulerState.step (review.candidateRun phase.attempt) reply
          phase.scheduler = some scheduler)
      (isOver : scheduler.control = .returned)
      (frozen :
        freeze review ({ phase with scheduler } : PhaseState DiffChunk).record
          scheduler.outcome = .ok manifest)
      (kept : source.stores backend event = false) :
      EngineSteps review backend event source
        { source with control := .freezing { phase with scheduler } manifest }
  | frozen (phase : PhaseState DiffChunk) (manifest : ReviewProgress)
      (stands : source.control = .freezing phase manifest)
      (accepted : backend source.durable manifest)
      (stored : source.stores backend event = true) :
      EngineSteps review backend event source
        { durable := some manifest
          control :=
            beginVerification review phase.attempt manifest phase.scheduler.usage }
  | verify (phase : PhaseState (List Finding)) (reply : Reply)
      (scheduler : SchedulerState (List Finding))
      (stands : source.control = .verification phase)
      (stepped :
        SchedulerState.step (review.verificationRun phase.attempt phase.progress)
          reply phase.scheduler = some scheduler)
      (working : ∀ session closing, phase.scheduler.control ≠ .saving session closing)
      (loops : scheduler.control ≠ .returned)
      (running : ∀ error, scheduler.control ≠ .raised error)
      (kept : source.stores backend event = false) :
      EngineSteps review backend event source
        { source with control := .verification { phase with scheduler } }
  | verifySaved (phase : PhaseState (List Finding))
      (session : Session (List Finding)) (closing : Closing (List Finding))
      (stands : source.control = .verification phase)
      (saving : phase.scheduler.control = .saving session closing)
      (accepted : backend source.durable phase.record)
      (stored : source.stores backend event = true) :
      EngineSteps review backend event source
        { durable := some phase.record
          control :=
            .verification
              { phase with
                scheduler :=
                  phase.scheduler.saveDone
                    (review.verificationRun phase.attempt phase.progress)
                    session closing } }
  | conclude (phase : PhaseState (List Finding)) (reply : Reply)
      (scheduler : SchedulerState (List Finding)) (result : ReviewResult)
      (stands : source.control = .verification phase)
      (stepped :
        SchedulerState.step (review.verificationRun phase.attempt phase.progress)
          reply phase.scheduler = some scheduler)
      (isOver : scheduler.control = .returned)
      (concluded :
        conclude review phase.attempt.worktree
          ({ phase with scheduler } : PhaseState (List Finding)).record
          scheduler.outcome scheduler.usage = .ok result)
      (kept : source.stores backend event = false) :
      EngineSteps review backend event source
        { source with control := .counting { phase with scheduler } result }
  | count (phase : PhaseState (List Finding)) (result : ReviewResult)
      (totals : InvocationTotals) (stands : source.control = .counting phase result)
      (kept : source.stores backend event = false) :
      EngineSteps review backend event source
        { source with
          control :=
            .completing phase
              { result with
                reviewMetadata :=
                  { result.reviewMetadata with actualUsage := some totals } } }
  | complete (phase : PhaseState (List Finding)) (result : ReviewResult)
      (progress : ReviewProgress)
      (stands : source.control = .completing phase result)
      (saves : source.control.saves = some progress)
      (accepted : backend source.durable progress)
      (stored : source.stores backend event = true) :
      EngineSteps review backend event source
        { durable := some progress, control := .returned (some result) }

section Inversion

variable {review : NativeReview} {backend : Backend} {event : EngineEvent}
  {source target : EngineState}

theorem stores_of_saves_none (nothing : source.control.saves = none) :
    source.stores backend event = false := by
  unfold EngineState.stores
  rw [nothing, Bool.and_false]

theorem stores_of_not_commits (quiet : event.commits = false) :
    source.stores backend event = false := by
  unfold EngineState.stores
  rw [quiet, Bool.false_and]

theorem stores_eq_true {progress : ReviewProgress}
    (commits : event.commits = true) (saves : source.control.saves = some progress)
    (accepted : backend source.durable progress) :
    source.stores backend event = true := by
  unfold EngineState.stores
  rw [commits, saves, Bool.true_and]
  exact accepted

theorem commit_eq_some (committed : source.commit backend = some target) :
    (source.control.saves = none ∧ target = source) ∨
      ∃ progress, source.control.saves = some progress ∧
        backend source.durable progress ∧
        target = { source with durable := some progress } := by
  unfold EngineState.commit at committed
  split at committed
  · rename_i nothing
    cases committed
    exact .inl ⟨nothing, rfl⟩
  · rename_i progress saves
    split at committed
    · rename_i accepted
      cases committed
      exact .inr ⟨progress, saves, accepted, rfl⟩
    · cases committed

theorem stores_of_commit_none (refused : source.commit backend = none) :
    source.stores backend event = false := by
  unfold EngineState.commit at refused
  split at refused
  · cases refused
  · rename_i progress saves
    split at refused
    · cases refused
    · rename_i refuses
      unfold EngineState.stores
      rw [saves]
      simp [refuses]

/-- A call ends while its save may have been committed. -/
theorem engineSteps_lose {committed : Bool} {control : EngineControl}
    (commits : event.commits = committed) (silent : control.isSilent review) :
    EngineSteps review backend event source
      { source.lose backend committed with control } := by
  unfold EngineState.lose
  cases committed with
  | false =>
      exact .stop control silent (stores_of_not_commits commits)
  | true =>
      rw [if_pos rfl]
      cases stored : source.commit backend with
      | none =>
          exact .stop control silent (stores_of_commit_none stored)
      | some state =>
          rcases commit_eq_some stored with
            ⟨nothing, rfl⟩ | ⟨progress, saves, accepted, rfl⟩
          · exact .stop control silent (stores_of_saves_none nothing)
          · exact
              .lose progress control saves accepted silent
                (stores_eq_true commits saves accepted)

theorem engineSteps_resume {attempt : Attempt} {progress : ReviewProgress}
    (stands : source.control = .loading attempt)
    (known : source.durable = some progress) :
    EngineSteps review backend event source
      { source with control := Native.resume review attempt progress } := by
  have kept : source.stores backend event = false :=
    stores_of_saves_none (by rw [stands]; rfl)
  by_cases phase : progress.phase = .complete
  · unfold Native.resume
    rw [phase]
    dsimp only
    cases finished : progress.result with
    | none =>
        exact .stop _ True.intro kept
    | some result =>
        exact .promote progress result known phase finished kept
  · exact .resume attempt progress stands known phase kept

/-- A reply that acknowledges a save continues after it. -/
theorem step_saving {Payload : Type} {run : PhaseRun Payload} {reply : Reply}
    {state next : SchedulerState Payload} {session : Session Payload}
    {closing : Closing Payload}
    (stepped : SchedulerState.step run reply state = some next)
    (saving : state.control = .saving session closing) :
    (reply = .acknowledged ∧ next = state.saveDone run session closing) ∨
      ∃ message, reply = .backendFailed message ∧
        next = state.raise (.transient message) := by
  unfold SchedulerState.step at stepped
  rw [saving] at stepped
  cases reply with
  | acknowledged =>
      cases stepped
      exact .inl ⟨rfl, rfl⟩
  | backendFailed message =>
      cases stepped
      exact .inr ⟨message, rfl, rfl⟩
  | _ =>
      cases stepped

/-- A phase whose scheduler is not saving saves nothing. -/
theorem saves_eq_none {Payload : Type} {phase : PhaseState Payload}
    (working : ∀ session closing,
      phase.scheduler.control ≠ .saving session closing) :
    phase.saves = none := by
  unfold PhaseState.saves
  split
  · rename_i session closing saving
    exact absurd saving (working session closing)
  · rfl

/-- Whatever a reply says about a save that is not under way, the record stays. -/
theorem target_of_reply {reply : Reply} {committed : Bool} {control : EngineControl}
    (nothing : source.control.saves = none)
    (replied : source.replied backend reply committed control = some target) :
    target = { source with control } := by
  have stays : source.commit backend = some source := by
    unfold EngineState.commit
    rw [nothing]
  unfold EngineState.replied at replied
  split at replied
  · rw [stays] at replied
    cases replied
    rfl
  · unfold EngineState.lose at replied
    rw [stays, Option.getD_some, ite_self] at replied
    cases replied
    rfl
  · cases replied
    rfl

theorem saves_of_saving {Payload : Type} {phase : PhaseState Payload}
    {session : Session Payload} {closing : Closing Payload}
    (saving : phase.scheduler.control = .saving session closing) :
    phase.saves = some phase.record := by
  unfold PhaseState.saves
  rw [saving]

theorem engineSteps_candidate {phase : PhaseState DiffChunk} {reply : Reply}
    {scheduler : SchedulerState DiffChunk} {committed : Bool}
    (replies : event = .phase reply committed)
    (stands : source.control = .candidate phase)
    (stepped :
      SchedulerState.step (review.candidateRun phase.attempt) reply
        phase.scheduler = some scheduler)
    (replied :
      source.replied backend reply committed
          (afterCandidate review { phase with scheduler }) =
        some target) :
    EngineSteps review backend event source target := by
  subst replies
  by_cases saves : ∃ session closing,
      phase.scheduler.control = .saving session closing
  · obtain ⟨session, closing, saving⟩ := saves
    rcases step_saving stepped saving with ⟨rfl, rfl⟩ | ⟨message, rfl, rfl⟩
    · have goesOn :
          afterCandidate review
              { phase with
                scheduler :=
                  phase.scheduler.saveDone (review.candidateRun phase.attempt)
                    session closing } =
            .candidate
              { phase with
                scheduler :=
                  phase.scheduler.saveDone (review.candidateRun phase.attempt)
                    session closing } := by
        cases closing <;> rfl
      rw [goesOn, EngineState.replied, Option.map_eq_some_iff] at replied
      obtain ⟨state, stored, rfl⟩ := replied
      rcases commit_eq_some stored with ⟨nothing, rfl⟩ | ⟨progress, known, accepted, rfl⟩
      · rw [stands] at nothing
        exact absurd (nothing.symm.trans (saves_of_saving saving)) (by simp)
      · rw [stands] at known
        cases known.symm.trans (saves_of_saving saving)
        refine .exploreSaved phase session closing stands saving accepted ?_
        refine stores_eq_true rfl ?_ accepted
        rw [stands]
        exact saves_of_saving saving
    · cases replied
      exact engineSteps_lose rfl True.intro
  · have working : ∀ session closing,
        phase.scheduler.control ≠ .saving session closing :=
      fun session closing saving => saves ⟨session, closing, saving⟩
    have nothing : source.control.saves = none := by
      rw [stands]
      exact saves_eq_none working
    have kept : source.stores backend (.phase reply committed) = false :=
      stores_of_saves_none nothing
    rw [target_of_reply nothing replied]
    unfold afterCandidate
    dsimp only
    split
    · rename_i isOver
      split
      · exact .stop _ True.intro kept
      · rename_i manifest frozen
        exact .freeze phase reply scheduler manifest stands stepped isOver frozen kept
    · exact .stop _ True.intro kept
    · rename_i loops running
      exact
        .explore phase reply scheduler stands stepped working loops
          (fun error => running error) kept

theorem engineSteps_verification {phase : PhaseState (List Finding)} {reply : Reply}
    {scheduler : SchedulerState (List Finding)} {committed : Bool}
    (replies : event = .phase reply committed)
    (stands : source.control = .verification phase)
    (stepped :
      SchedulerState.step (review.verificationRun phase.attempt phase.progress)
        reply phase.scheduler = some scheduler)
    (replied :
      source.replied backend reply committed
          (afterVerification review { phase with scheduler }) =
        some target) :
    EngineSteps review backend event source target := by
  subst replies
  by_cases saves : ∃ session closing,
      phase.scheduler.control = .saving session closing
  · obtain ⟨session, closing, saving⟩ := saves
    rcases step_saving stepped saving with ⟨rfl, rfl⟩ | ⟨message, rfl, rfl⟩
    · have goesOn :
          afterVerification review
              { phase with
                scheduler :=
                  phase.scheduler.saveDone
                    (review.verificationRun phase.attempt phase.progress)
                    session closing } =
            .verification
              { phase with
                scheduler :=
                  phase.scheduler.saveDone
                    (review.verificationRun phase.attempt phase.progress)
                    session closing } := by
        cases closing <;> rfl
      rw [goesOn, EngineState.replied, Option.map_eq_some_iff] at replied
      obtain ⟨state, stored, rfl⟩ := replied
      rcases commit_eq_some stored with ⟨nothing, rfl⟩ | ⟨progress, known, accepted, rfl⟩
      · rw [stands] at nothing
        exact absurd (nothing.symm.trans (saves_of_saving saving)) (by simp)
      · rw [stands] at known
        cases known.symm.trans (saves_of_saving saving)
        refine .verifySaved phase session closing stands saving accepted ?_
        refine stores_eq_true rfl ?_ accepted
        rw [stands]
        exact saves_of_saving saving
    · cases replied
      exact engineSteps_lose rfl True.intro
  · have working : ∀ session closing,
        phase.scheduler.control ≠ .saving session closing :=
      fun session closing saving => saves ⟨session, closing, saving⟩
    have nothing : source.control.saves = none := by
      rw [stands]
      exact saves_eq_none working
    have kept : source.stores backend (.phase reply committed) = false :=
      stores_of_saves_none nothing
    rw [target_of_reply nothing replied]
    unfold afterVerification
    dsimp only
    split
    · rename_i isOver
      split
      · exact .stop _ True.intro kept
      · rename_i result concluded
        exact
          .conclude phase reply scheduler result stands stepped isOver concluded kept
    · exact .stop _ True.intro kept
    · rename_i loops running
      exact
        .verify phase reply scheduler stands stepped working loops
          (fun error => running error) kept

/-- An acknowledged save of the engine itself. -/
theorem engineSteps_acknowledged {control : EngineControl}
    (commits : event.commits = true)
    (after : afterSave review source.control = some control)
    (committed :
      ((source.commit backend).map fun committed => { committed with control }) =
        some target) :
    EngineSteps review backend event source target := by
  rw [Option.map_eq_some_iff] at committed
  obtain ⟨state, stored, rfl⟩ := committed
  unfold afterSave at after
  split at after
  · rename_i attempt progress stands
    cases after
    rcases commit_eq_some stored with ⟨nothing, rfl⟩ | ⟨saved, saves, accepted, rfl⟩
    · rw [stands] at nothing
      cases nothing
    · have kept := stores_eq_true commits saves accepted
      rw [stands] at saves
      cases saves
      exact .opened attempt progress stands accepted kept
  · rename_i phase progress stands
    cases after
    rcases commit_eq_some stored with ⟨nothing, rfl⟩ | ⟨saved, saves, accepted, rfl⟩
    · rw [stands] at nothing
      cases nothing
    · have kept := stores_eq_true commits saves accepted
      rw [stands] at saves
      cases saves
      exact .frozen phase progress stands accepted kept
  · rename_i phase result stands
    cases after
    rcases commit_eq_some stored with ⟨nothing, rfl⟩ | ⟨saved, saves, accepted, rfl⟩
    · rw [stands] at nothing
      cases nothing
    · exact
        .complete phase result saved stands saves accepted
          (stores_eq_true commits saves accepted)
  · cases after

/-- An engine that has loaded the progress. -/
theorem engineSteps_loaded
    (stepped : engineStep review backend .loaded source = some target) :
    EngineSteps review backend .loaded source target := by
  have kept : source.stores backend .loaded = false := stores_of_not_commits rfl
  simp only [engineStep] at stepped
  split at stepped
  · cases stepped
    unfold recovered
    split
    · exact .stop _ True.intro kept
    · rename_i progress known
      split
      · exact .stop _ True.intro kept
      · rename_i phase
        split
        · exact .stop _ True.intro kept
        · rename_i result finished
          exact
            .promote progress result known (Decidable.not_not.mp phase) finished kept
  · rename_i attempt stands
    split at stepped
    · rename_i nothing
      cases stepped
      exact .readLegacy attempt stands nothing kept
    · rename_i progress known
      cases stepped
      exact engineSteps_resume stands known
  · cases stepped

/-- Every step of an engine is one of the listed ones. -/
theorem EngineSteps.of_step
    (stepped : engineStep review backend event source = some target) :
    EngineSteps review backend event source target := by
  cases event with
  | loaded =>
      exact engineSteps_loaded stepped
  | review attempt =>
      have kept : source.stores backend (.review attempt) = false :=
        stores_of_not_commits rfl
      simp only [engineStep] at stepped
      split at stepped
      · rename_i idle
        cases stepped
        split
        · exact .stop _ rfl kept
        · exact .load attempt rfl idle kept
      · cases stepped
  | recover =>
      have kept : source.stores backend .recover = false := stores_of_not_commits rfl
      simp only [engineStep] at stepped
      split at stepped
      · rename_i idle
        cases stepped
        split
        · exact .stop _ True.intro kept
        · exact .recover idle kept
      · cases stepped
  | crash committed =>
      cases stepped
      exact engineSteps_lose rfl True.intro
  | legacy present usage =>
      simp only [engineStep] at stepped
      split at stepped
      · rename_i attempt stands
        cases stepped
        exact .open_ attempt present usage stands (stores_of_not_commits rfl)
      · cases stepped
  | totals totals =>
      simp only [engineStep] at stepped
      split at stepped
      · rename_i phase result stands
        cases stepped
        exact .count phase result totals stands (stores_of_not_commits rfl)
      · cases stepped
  | acknowledged =>
      simp only [engineStep] at stepped
      split at stepped
      · cases stepped
      · rename_i control after
        exact engineSteps_acknowledged rfl after stepped
  | backendFailed error committed =>
      simp only [engineStep] at stepped
      split at stepped
      · cases stepped
        exact engineSteps_lose rfl True.intro
      · cases stepped
  | phase reply committed =>
      simp only [engineStep] at stepped
      split at stepped
      · cases stepped
      · rename_i control after
        unfold afterReply at after
        split at after
        · rename_i phase stands
          rw [Option.map_eq_some_iff] at after
          obtain ⟨scheduler, schedulerStepped, rfl⟩ := after
          exact engineSteps_candidate rfl stands schedulerStepped stepped
        · rename_i phase stands
          rw [Option.map_eq_some_iff] at after
          obtain ⟨scheduler, schedulerStepped, rfl⟩ := after
          exact engineSteps_verification rfl stands schedulerStepped stepped
        · cases after

/-- A step leaves the record in the backend alone, or replaces it by the one that is
being saved. -/
theorem EngineSteps.durable (steps : EngineSteps review backend event source target) :
    (source.stores backend event = false ∧ target.durable = source.durable) ∨
      source.stores backend event = true ∧
        ∃ progress, source.control.saves = some progress ∧
          backend source.durable progress ∧ target.durable = some progress := by
  cases steps with
  | stop control silent kept | recover idle kept | load attempt called idle kept
  | readLegacy attempt stands nothing kept
  | promote progress result known phase finished kept
  | open_ attempt present usage stands kept
  | resume attempt progress stands known phase kept
  | explore phase reply scheduler stands stepped working loops running kept
  | freeze phase reply scheduler manifest stands stepped isOver frozen kept
  | verify phase reply scheduler stands stepped working loops running kept
  | conclude phase reply scheduler result stands stepped isOver concluded kept
  | count phase result totals stands kept =>
      exact .inl ⟨kept, rfl⟩
  | lose progress control saves accepted silent stored
  | complete phase result progress stands saves accepted stored =>
      exact .inr ⟨stored, progress, saves, accepted, rfl⟩
  | opened attempt progress stands accepted stored
  | frozen phase progress stands accepted stored =>
      refine .inr ⟨stored, progress, ?_, accepted, rfl⟩
      rw [stands]
      rfl
  | exploreSaved phase session closing stands saving accepted stored
  | verifySaved phase session closing stands saving accepted stored =>
      refine .inr ⟨stored, phase.record, ?_, accepted, rfl⟩
      rw [stands]
      exact saves_of_saving saving

end Inversion

end PeReview.Native
