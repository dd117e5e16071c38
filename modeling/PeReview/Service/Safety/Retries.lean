import PeReview.Service.Answers

/-!
# What the retry helpers keep

Triples of the helpers that start and finish attempts, schedule retries and close
jobs.
-/

namespace PeReview

open PeReview.Process

namespace Knowledge

variable {known weaker : Knowledge}

theorem plainly_implies {error : PyError}
    (implies : error.isPlain = true → known.Implies weaker) :
    (known.plainly error).Implies weaker :=
  given_implies implies

theorem Implies.plainly (implies : known.Implies weaker) (error : PyError) :
    (known.plainly error).Implies (weaker.plainly error) :=
  plainly_implies fun plain => implies.trans (implies_given _ plain)

theorem plainly_released (known : Knowledge) (error : PyError) :
    (known.plainly error).Implies (known.released.plainly error) :=
  known.implies_released.plainly error

end Knowledge

namespace Site

variable {site : Site} {known : Knowledge} {settings : Settings}
  {job : JobRecord} {stage : AttemptStage}

namespace Triple

variable {Value : Type} {post : Value → Knowledge} {raised : PyError → Knowledge}

theorem ensureLease :
    site.Triple known (ensureLease job) (fun _ => known) known.plainly := by
  unfold PeReview.ensureLease
  refine bind (plain (Runs.neutral rfl)) ?_
  intro lost
  cases lost with
  | true => exact throw (Knowledge.implies_given _ rfl)
  | false => exact pure (.refl known)

/-- Moving the job on, when it is where the worker expects it. -/
theorem moveFrom {source target : JobState} (uncovered : known.covered = false)
    (about : job.id = site.id) (silent : known.silent = true)
    (same : ∀ state, known.states state → state = job.state)
    (moves : source = .received ∧ target = .fetching ∨
      source = .fetching ∧ target = .reviewing ∨
      source = .reviewing ∧ target = .validating ∨
      source = .readyToPublish ∧ target = .publishing) :
    site.Triple known (moveFrom job source target)
      (fun moved : JobRecord =>
        { known with states := fun state => state = moved.state }.given
          (moved.id = site.id ∧
            (moved.state = target ∨ job.state ≠ source ∧ moved = job)))
      (known.after (some (.move target false))).plainly := by
  by_cases here : job.state = source
  · have moving : PeReview.moveFrom job source target =
        Task.store (.transition site.id target false) := by
      rw [← about]
      exact if_pos here
    rw [moving]
    refine consequence (transition uncovered ⟨silent, rfl, ?_⟩) (.refl known)
      (fun moved => ?_) fun _ => .refl _
    · intro state holds
      rw [(same state holds).trans here]
      exact moves
    · refine Knowledge.given_implies ?_
      rintro ⟨mine, reached⟩ fact
      have fact : known.fact := fact
      constructor <;> simp_all [Knowledge.given]
  · have staying : PeReview.moveFrom job source target = Pure.pure job :=
      if_neg here
    rw [staying]
    exact pure fun fact =>
      { Knowledge.Implies.refl known fact with
        fact := ⟨fact, about, .inr ⟨here, rfl⟩⟩
        states := same }

theorem finishAttempt {attempt : AttemptId} {success : Bool}
    {retryable : Option Bool} {error : Option PyError}
    (about : attempt.job = site.id) (uncovered : known.covered = false) :
    site.Triple known (finishAttempt attempt success retryable error)
      (fun _ => known) known.plainly :=
  reads about uncovered rfl

theorem finishAttemptIfOpen {attempt : AttemptId} {success : Bool}
    {retryable : Option Bool} {error : Option PyError}
    (about : attempt.job = site.id) (uncovered : known.covered = false) :
    site.Triple known (finishAttemptIfOpen attempt success retryable error)
      (fun _ => known) known.plainly := by
  refine tryCatch (finishAttempt about uncovered) ?_
  intro raised
  split
  · exact pure (Knowledge.plainly_implies fun _ => .refl known)
  · exact throw (.refl _)

theorem finishStarted {attempt : Option AttemptId} {success : Bool}
    {retryable : Option Bool} {error : Option PyError}
    (about : ∀ started ∈ attempt, started.job = site.id)
    (uncovered : known.covered = false) :
    site.Triple known (finishStarted attempt success retryable error)
      (fun _ => known) known.plainly := by
  cases attempt with
  | none => exact pure (.refl known)
  | some attempt => exact finishAttemptIfOpen (about attempt rfl) uncovered

/-- Closing the job. -/
theorem markFailedPermanent {error : Reason} (uncovered : known.covered = false)
    (closable : known.silent = true ∧ known.Resolved) :
    site.Triple known (Task.store (.markFailedPermanent site.id error))
      (fun _ => known.released) known.released.plainly := by
  refine acts rfl uncovered ?_
  rintro action ⟨⟩
  exact closable

theorem markSuperseded {supersededBy : Option JobId}
    (uncovered : known.covered = false)
    (closable : known.silent = true ∧ known.Resolved) :
    site.Triple known (Task.store (.markSuperseded site.id supersededBy))
      (fun _ => known.released) known.released.plainly := by
  refine acts rfl uncovered ?_
  rintro action ⟨⟩
  exact closable

theorem providerRetryExhausted {count : Nat} {elapsed : Time}
    {lastError : Option PyError} (about : job.id = site.id)
    (uncovered : known.covered = false)
    (closable : known.silent = true ∧ known.Resolved) :
    site.Triple known (providerRetryExhausted job count elapsed lastError)
      (fun _ => known.released) known.released.plainly := by
  unfold PeReview.providerRetryExhausted
  rw [about]
  exact bind (markFailedPermanent uncovered closable) fun _ => pure (.refl _)

theorem providerUnavailable (about : job.id = site.id)
    (uncovered : known.covered = false)
    (closable : stage ≠ .reconcile → known.silent = true ∧ known.Resolved) :
    site.Triple known (providerUnavailable settings job stage)
      (fun unavailable => if unavailable then known.released else known)
      known.released.plainly := by
  unfold PeReview.providerUnavailable
  split
  · rename_i review
    have closable := closable (by simp [review])
    refine bind (raises (reads about uncovered rfl) known.plainly_released) ?_
    intro provider
    split
    · exact pure (.refl known)
    · split
      · exact pure (.refl known)
      · refine bind (plain (Runs.neutral rfl)) ?_
        intro now
        dsimp only
        split
        · exact bind (providerRetryExhausted about uncovered closable)
            fun _ => pure (.refl _)
        · exact pure (.refl known)
  · exact pure (.refl known)

/-- A refused attempt may have closed the job. -/
theorem canStartAttempt (about : job.id = site.id)
    (uncovered : known.covered = false)
    (closable : stage ≠ .reconcile → known.silent = true ∧ known.Resolved) :
    site.Triple known (canStartAttempt settings job stage)
      (fun allowed => if allowed then known else known.released)
      known.released.plainly := by
  unfold PeReview.canStartAttempt
  refine bind (providerUnavailable about uncovered closable) ?_
  intro unavailable
  cases unavailable with
  | true => exact pure (.refl _)
  | false =>
      simp only [Bool.false_eq_true, if_false]
      refine bind (raises (reads about uncovered rfl) known.plainly_released) ?_
      intro consumed
      split
      · exact pure (.refl known)
      · rename_i budgeted
        split
        · exact pure (.refl known)
        · rw [about]
          exact bind (markFailedPermanent uncovered (closable budgeted))
            fun _ => pure (.refl _)

theorem retryDelay {retryAfterSeconds : Option Nat} {attempt : Nat} :
    site.Triple known (retryDelay retryAfterSeconds attempt) (fun _ => known)
      raised := by
  unfold PeReview.retryDelay
  cases retryAfterSeconds with
  | some seconds => exact pure (.refl known)
  | none => exact plain (Runs.neutral rfl)

theorem providerRetryAfter {error : PyError} (about : job.id = site.id)
    (uncovered : known.covered = false)
    (closable : known.silent = true ∧ known.Resolved) :
    site.Triple known (providerRetryAfter settings job stage error)
      (fun retryAfter => if retryAfter.isSome then known else known.released)
      known.released.plainly := by
  unfold PeReview.providerRetryAfter
  refine bind (raises (reads about uncovered rfl) known.plainly_released) ?_
  intro provider
  refine bind (plain (Runs.neutral rfl)) ?_
  intro now
  dsimp only
  split
  · exact bind (providerRetryExhausted about uncovered closable)
      fun _ => pure (.refl _)
  · exact bind retryDelay fun _ => pure (.refl known)

/-- Parking the job where it is. -/
theorem parkJob {error : PyError} {retryAfter : Time}
    (uncovered : known.covered = false) (silent : known.silent = true)
    (started : stage = .publish → ∀ state, known.states state →
      state ≠ .readyToPublish) :
    site.Triple known (parkJob site.id stage error retryAfter)
      (fun _ => known.released) known.released.plainly := by
  unfold PeReview.parkJob
  refine bind (raises (get uncovered) known.plainly_released) ?_
  intro record
  refine strengthen ?_ (Knowledge.given_implies fun _ => .refl _)
  cases record with
  | none => exact pure (known.within_implies.trans known.implies_released)
  | some current =>
      dsimp only
      split
      · refine bind (plain (Runs.neutral rfl)) ?_
        intro now
        refine bind (raises (acts rfl uncovered ?_) fun error => ?_) fun _ => pure ?_
        · rintro action ⟨⟩
          refine ⟨silent, ?_⟩
          rintro state ⟨holds, _, ⟨⟩, rfl⟩
          unfold resumeState
          split
          · rename_i ready
            simp only [Bool.and_eq_true, decide_eq_true_eq] at ready
            exact absurd ready.2 (started ready.1 _ holds)
          · rfl
        · exact known.within_implies.released.plainly error
        · exact known.within_implies.released
      · refine throw ?_
        exact (known.within_implies.trans known.implies_released).trans
          (Knowledge.implies_given _ rfl)

/-- A retry may close the job, unless it is a recovery pass or a reconciliation. -/
theorem scheduleRetry {error : PyError} {allowRecoveryPass : Bool}
    (uncovered : known.covered = false) (silent : known.silent = true)
    (started : stage = .publish → ∀ state, known.states state →
      state ≠ .readyToPublish)
    (resolved : stage = .review ∨
      stage ≠ .reconcile ∧ allowRecoveryPass = false → known.Resolved) :
    site.Triple known
      (scheduleRetry settings site.id stage error allowRecoveryPass)
      (fun _ => known.released) known.released.plainly := by
  unfold PeReview.scheduleRetry
  refine bind (raises (get uncovered) known.plainly_released) ?_
  intro record
  refine assuming ?_
  rintro ⟨_, about⟩
  refine strengthen ?_
    (Knowledge.given_implies fun _ => known.within_implies)
  cases record with
  | none => exact pure known.implies_released
  | some job =>
      dsimp only
      refine bind (raises (reads rfl uncovered rfl) known.plainly_released) ?_
      intro stageAttempts
      split
      · rename_i providerRetry
        simp only [Bool.and_eq_true, decide_eq_true_eq] at providerRetry
        refine bind (providerRetryAfter (about job rfl) uncovered
          ⟨silent, resolved (.inl providerRetry.2)⟩) ?_
        intro retryAfter
        cases retryAfter with
        | none => exact pure (.refl _)
        | some retryAfter => exact parkJob uncovered silent started
      · split
        · rename_i exhausted
          refine bind (markFailedPermanent uncovered ⟨silent, resolved ?_⟩)
            fun _ => pure (.refl _)
          exact .inr ⟨exhausted.1, exhausted.2.2⟩
        · exact bind retryDelay fun _ => parkJob uncovered silent started

/-- `_permanent_failure` closes the job. -/
theorem permanentFailure {error : PyError} (about : job.id = site.id)
    (uncovered : known.covered = false)
    (closable : known.silent = true ∧ known.Resolved) :
    site.Triple known (permanentFailure job error) (fun _ => known.released)
      known.released.plainly := by
  unfold PeReview.permanentFailure
  rw [about]
  refine bind (raises (get uncovered) known.plainly_released) ?_
  intro record
  refine strengthen ?_
    (Knowledge.given_implies fun _ => known.within_implies)
  cases record with
  | none => exact pure known.implies_released
  | some current =>
      dsimp only
      split
      · exact pure known.implies_released
      · exact bind (markFailedPermanent uncovered closable) fun _ => pure (.refl _)

/-- The guard before a POST covers the worker for one lease, if it lets it
pass. -/
theorem publishGuard (uncovered : known.covered = false) :
    site.Triple known (publishGuard site.id)
      (fun current => { known with covered := current }) known.plainly := by
  unfold PeReview.publishGuard
  refine bind (refreshPublishGuard uncovered) ?_
  rintro (_ | _ | _)
  · exact pure (.refl _)
  · exact pure (.refl _)
  · have kept : ({ known with covered := false } : Knowledge).Implies known :=
      fun fact =>
        { Knowledge.Implies.refl known fact with
          covered := fun covered => by
            rw [uncovered] at covered
            cases covered }
    exact throw (kept.trans (Knowledge.implies_given _ rfl))

end Triple

end Site

end PeReview
