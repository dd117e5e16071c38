import PeReview.Jobs.Store.Transitions

/-!
# Attempts and retry accounting

The attempt rows of `JobStore` and the counts the retry budgets are checked
against.  An attempt's number is its position in the job's list of attempts:
`start_attempt` adds a row whenever it increments `attempt_count`.
-/

namespace PeReview

open PeReview.Data

/-- `ProviderRetryStatus`. -/
structure ProviderRetryStatus where
  count : Nat
  firstFailedAt : Option Time
  lastFailedAt : Option Time
  deriving DecidableEq, Repr

namespace Attempt

/-- A provider failure has its own allowance and leaves the stage budget alone. -/
def isProviderFailure (attempt : Attempt) : Bool :=
  attempt.errorClass = some ErrorClass.providerUnavailableError.name

/-- Failed, or left unfinished by a crash. -/
def consumesRetry (attempt : Attempt) : Bool :=
  (attempt.success = some false || attempt.finishedAt.isNone) &&
    !attempt.isProviderFailure

end Attempt

namespace Job

/-- The attempts of one stage in the current retry epoch, oldest first. -/
def epochAttempts (job : Job) (stage : AttemptStage) : List Attempt :=
  (job.attempts.drop job.retryEpochStartAttempt).filter
    fun attempt => attempt.stage = stage

/-- `_count_consumed_retry_attempts_select`. -/
def countConsumed (job : Job) (stage : AttemptStage) : Nat :=
  (job.epochAttempts stage).countP Attempt.consumesRetry

/-- The trailing streak of finished provider failures, newest first. -/
def providerStreak (job : Job) (stage : AttemptStage) : List Attempt :=
  (job.epochAttempts stage).reverse.takeWhile fun attempt =>
    attempt.isProviderFailure && attempt.finishedAt.isSome

/-- The streak as `provider_retry_status` reports it. -/
def providerStatus (job : Job) (stage : AttemptStage) : ProviderRetryStatus :=
  let streak := job.providerStreak stage
  { count := streak.length
    firstFailedAt := streak.getLast?.bind Attempt.finishedAt
    lastFailedAt := streak.head?.bind Attempt.finishedAt }

end Job

namespace Store

/-- `JobStore.start_attempt`. -/
def startAttempt (store : Store) (now : Time) (id : JobId)
    (stage : AttemptStage) (worker : WorkerId) :
    Except PyError (Store × AttemptId) :=
  match store.jobs[id]? with
  | none =>
      .error (.runtime s!"job {id} is missing or not leased by {worker}")
  | some job =>
      if job.live worker now then
        .ok
          (store.setJob id
            { job with
              attemptCount := job.attemptCount + 1
              attempts :=
                job.attempts ++ [{ stage, workerId := worker, startedAt := now }] },
            { job := id, number := job.attempts.length })
      else .error (.runtime s!"job {id} is missing or not leased by {worker}")

/-- `JobStore.count_consumed_retry_attempts`. -/
def countConsumedRetryAttempts (store : Store) (id : JobId)
    (stage : AttemptStage) : Nat :=
  match store.jobs[id]? with
  | none => 0
  | some job => job.countConsumed stage

/-- `JobStore.provider_retry_status`. -/
def providerRetryStatus (store : Store) (id : JobId) (stage : AttemptStage) :
    ProviderRetryStatus :=
  match store.jobs[id]? with
  | none => { count := 0, firstFailedAt := none, lastFailedAt := none }
  | some job => job.providerStatus stage

def attempt? (store : Store) (attempt : AttemptId) : Option Attempt :=
  (store.jobs[attempt.job]?).bind fun job => job.attempts[attempt.number]?

def setAttempt (store : Store) (attempt : AttemptId) (row : Attempt) : Store :=
  match store.jobs[attempt.job]? with
  | none => store
  | some job =>
      store.setJob attempt.job
        { job with attempts := job.attempts.set attempt.number row }

/-- `JobStore.finish_attempt`. -/
def finishAttempt (store : Store) (now : Time) (attempt : AttemptId)
    (success : Bool) (retryable : Option Bool := none)
    (error : Option Reason := none) : Except PyError (Store × Unit) :=
  let missing : PyError :=
    .runtime (s!"attempt {attempt.number} is missing or already finished")
  match store.attempt? attempt with
  | none => .error missing
  | some row =>
      if row.finishedAt.isSome then .error missing
      else
        .ok
          (store.setAttempt attempt
            { row with
              finishedAt := some now
              success := some success
              retryable
              errorClass := error.bind Reason.className
              errorMessage := error.map Reason.message }, ())

/-- `JobStore.append_attempt_tool_event`. -/
def appendAttemptToolEvent (store : Store) (attempt : AttemptId)
    (event : String) : Except PyError (Store × Unit) :=
  match store.attempt? attempt with
  | none => .error (.key attempt.number)
  | some row =>
      if 512 ≤ row.toolEvents.length then .ok (store, ())
      else
        .ok
          (store.setAttempt attempt
            { row with toolEvents := row.toolEvents ++ [event] }, ())

end Store

end PeReview
