import PeReview.Jobs.Store.Basic

/-!
# Lease-guarded state changes

`transition`, `schedule_retry`, `mark_failed_permanent`, `mark_superseded` and
`mark_done` of `JobStore`.
-/

namespace PeReview

open PeReview.Data

/-- What a caller hands over as the reason of a failure. -/
inductive Reason
  | raised (error : PyError)
  | text (message : String)
  deriving DecidableEq, Repr

namespace Reason

/-- `error.__class__.__name__`, for exceptions only. -/
def className : Reason → Option String
  | .raised error => some error.cls.name
  | .text _ => none

/-- `str(error)`. -/
def message : Reason → String
  | .raised error => error.message
  | .text message => message

end Reason

namespace Store

/-- `JobStore.transition`. -/
def transition (store : Store) (now : Time) (id : JobId) (target : JobState)
    (worker : WorkerId) (releaseLease : Bool := false) :
    Except PyError (Store × JobRecord) :=
  store.onJob id fun job => do
    job.requireLiveLease id worker now
    requireTransition job.state target
    let job := { job with state := target, retryState := none }
    let job :=
      if releaseLease || target.isTerminal then job.release else job
    .ok (job, job.record id)

/-- `JobStore.schedule_retry`. -/
def scheduleRetry (store : Store) (now : Time) (id : JobId)
    (resumeState : JobState) (retryAt : Time) (error : Reason)
    (worker : WorkerId) : Except PyError (Store × JobRecord) := do
  Except.require (validRetryTarget resumeState)
    (.value ("invalid retry target: " ++ resumeState.value))
  store.onJob id fun job => do
    job.requireLiveLease id worker now
    requireTransition job.state .retryWait
    let job :=
      { job with
        state := .retryWait
        retryState := some resumeState
        nextAttemptAt := retryAt
        lastErrorClass := error.className
        lastError := some error.message
        leaseOwner := none
        leaseExpiresAt := none }
    .ok (job, job.record id)

/-- `JobStore.mark_failed_permanent`. -/
def markFailedPermanent (store : Store) (now : Time) (id : JobId)
    (error : Reason) (worker : WorkerId) :
    Except PyError (Store × JobRecord) :=
  store.onJob id fun job => do
    job.requireLiveLease id worker now
    requireTransition job.state .failedPermanent
    let job :=
      { job with
        state := .failedPermanent
        retryState := none
        lastErrorClass := error.className
        lastError := some error.message
        leaseOwner := none
        leaseExpiresAt := none }
    .ok (job, job.record id)

/-- `JobStore.mark_superseded`. -/
def markSuperseded (store : Store) (now : Time) (id : JobId)
    (worker : WorkerId) (supersededByJobId : Option JobId := none) :
    Except PyError (Store × JobRecord) :=
  store.onJob id fun job =>
    if job.state = .superseded then .ok (job, job.record id)
    else do
      job.requireLiveLease id worker now
      requireTransition job.state .superseded
      let job :=
        { job with
          state := .superseded
          supersededByJobId
          retryState := none
          leaseOwner := none
          leaseExpiresAt := none }
      .ok (job, job.record id)

end Store

end PeReview
