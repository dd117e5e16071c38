import PeReview.Service.Calls

/-!
# Attempts and retries

The helpers of `ReviewWorker` that start and finish attempts, decide whether
another attempt is within budget, and schedule or refuse a retry.
-/

namespace PeReview

open PeReview.Process

/-- The settings the worker reads.  Durations are in microseconds. -/
structure Settings where
  claimLease : Time
  fetchAttempts : Nat
  reviewAttempts : Nat
  publishAttempts : Nat
  llmProviderAttempts : Nat
  llmProviderMaxWait : Time
  outputLanguage : String
  maxFindings : Nat
  maxPolicyBytes : Nat
  maxContextFileBytes : Nat
  reviewTag : String
  notify : String
  maxCommentBytes : Nat
  deriving DecidableEq, Repr

/-- One second of a `timedelta`. -/
def second : Time := 1000000

/-- `LeaseLostError`. -/
def PyError.leaseLost (message : String) : PyError :=
  { cls := .leaseLostError, message }

/-- `LeaseGuard.ensure`. -/
def ensureLease (job : JobRecord) : Task Unit := do
  let lost : Bool ← Task.plain .leaseLost
  if lost then
    throw (.leaseLost s!"job {job.id} lost worker lease")

/-- The transition of a job in one state; a job in another state stays as it is. -/
def moveFrom (job : JobRecord) (source target : JobState) : Task JobRecord :=
  if job.state = source then Task.store (.transition job.id target false)
  else pure job

/-- `ReviewWorker._start_attempt`. -/
def startAttempt (job : JobRecord) (stage : AttemptStage) : Task AttemptId :=
  Task.store (.startAttempt job.id stage)

/-- `ReviewWorker._finish_attempt`. -/
def finishAttempt (attempt : AttemptId) (success : Bool)
    (retryable : Option Bool := none) (error : Option PyError := none) :
    Task Unit :=
  Task.store (.finishAttempt attempt success retryable (error.map .raised))

/-- `ReviewWorker._finish_attempt_if_open`. -/
def finishAttemptIfOpen (attempt : AttemptId) (success : Bool)
    (retryable : Option Bool := none) (error : Option PyError := none) :
    Task Unit :=
  tryCatch (finishAttempt attempt success retryable error) fun raised =>
    if raised.isRuntimeError && pyContains raised.message "already finished" then
      pure ()
    else throw raised

/-- `_finish_attempt_if_open` for an attempt that may not have been started. -/
def finishStarted (attempt : Option AttemptId) (success : Bool)
    (retryable : Option Bool := none) (error : Option PyError := none) :
    Task Unit :=
  match attempt with
  | none => pure ()
  | some attempt => finishAttemptIfOpen attempt success retryable error

section Budgets

variable (settings : Settings)

/-- `ReviewWorker._retry_budget`. -/
def retryBudget : AttemptStage → Nat
  | .fetch => settings.fetchAttempts
  | .review => settings.reviewAttempts
  | .validate => settings.reviewAttempts
  | .publish => settings.publishAttempts
  | .reconcile => settings.fetchAttempts

/-- `ReviewWorker._provider_retry_exhausted`. -/
def providerRetryExhausted (job : JobRecord) (count : Nat) (elapsed : Time)
    (lastError : Option PyError) : Task Unit := do
  let suffix :=
    match lastError with
    | none => ""
    | some error => "; last error: " ++ error.message
  let _ ← Task.store
    (.markFailedPermanent job.id
      (.raised
        (.permanent
          (s!"LLM provider remained unavailable after {count} provider retries " ++
            s!"over {elapsed / second}s" ++ suffix))))
  pure ()

def providerExhausted (count : Nat) (elapsed : Time) : Bool :=
  settings.llmProviderAttempts ≤ count || settings.llmProviderMaxWait ≤ elapsed

/-- The first half of `_can_start_attempt`: whether the LLM provider has been
unavailable for too long, in which case the job is closed. -/
def providerUnavailable (job : JobRecord) (stage : AttemptStage) : Task Bool :=
  if stage = .review then do
    let provider ← Task.store (.providerRetryStatus job.id stage)
    match provider.firstFailedAt with
    | none => return false
    | some firstFailedAt =>
        if provider.count = 0 then return false
        else do
          let now : Time ← Task.plain .clock
          let elapsed := now - firstFailedAt
          if providerExhausted settings provider.count elapsed then do
            providerRetryExhausted job provider.count elapsed none
            return true
          else return false
  else return false

/-- `ReviewWorker._can_start_attempt`. -/
def canStartAttempt (job : JobRecord) (stage : AttemptStage) : Task Bool := do
  let unavailable ← providerUnavailable settings job stage
  if unavailable then return false
  let consumed : Nat ← Task.store (.countConsumedRetryAttempts job.id stage)
  if stage = .reconcile then return true
  if consumed < retryBudget settings stage then return true
  let _ ← Task.store
    (.markFailedPermanent job.id
      (.raised
        (.permanent
          (stage.value ++ " retry budget exhausted after " ++
            s!"{consumed} failed/crashed attempts"))))
  return false

/-- The delay an error asks for, or else an exponential backoff. -/
def retryDelay (retryAfterSeconds : Option Nat) (attempt : Nat) : Task Time :=
  match retryAfterSeconds with
  | some seconds => pure (seconds * second)
  | none => Task.plain (.backoff attempt)

def ProviderRetryStatus.elapsed (provider : ProviderRetryStatus) (now : Time) :
    Time :=
  match provider.firstFailedAt with
  | none => 0
  | some firstFailedAt => now - firstFailedAt

/-- The delay after a provider failure, or `none` when the provider has been
unavailable for too long and the job was closed. -/
def providerRetryAfter (job : JobRecord) (stage : AttemptStage)
    (error : PyError) : Task (Option Time) := do
  let provider ← Task.store (.providerRetryStatus job.id stage)
  let now : Time ← Task.plain .clock
  let elapsed := provider.elapsed now
  if providerExhausted settings provider.count elapsed then
    providerRetryExhausted job provider.count elapsed (some error)
    return none
  let retryAfter ← retryDelay error.retryAfterSeconds provider.count
  let remaining := settings.llmProviderMaxWait - elapsed
  return some (min (max second retryAfter) remaining)

/-- The states `_schedule_retry` can resume from. -/
def resumableStates : List JobState :=
  [.fetching, .reviewing, .validating, .readyToPublish, .publishing]

/-- The state `_schedule_retry` resumes from. -/
def resumeState (stage : AttemptStage) (current : JobState) : JobState :=
  if stage = .publish && current = .readyToPublish then .publishing else current

/-- The end of `_schedule_retry`: park the job where it is. -/
def parkJob (id : JobId) (stage : AttemptStage) (error : PyError)
    (retryAfter : Time) : Task Unit := do
  let some current ← Task.store (.get id) | return
  let resume := resumeState stage current.state
  if resumableStates.contains resume then
    let now : Time ← Task.plain .clock
    let _ ← Task.store
      (.scheduleRetry id resume (now + retryAfter) (.raised error))
  else throw (.runtime (s!"cannot retry job {id} from " ++ resume.value))

/-- `ReviewWorker._schedule_retry`. -/
def scheduleRetry (id : JobId) (stage : AttemptStage) (error : PyError)
    (allowRecoveryPass : Bool := false) : Task Unit := do
  let some job ← Task.store (.get id) | return
  let providerRetry :=
    error.cls = .providerUnavailableError && stage = .review
  let stageAttempts : Nat ← Task.store (.countConsumedRetryAttempts id stage)
  if providerRetry then
    let some retryAfter ← providerRetryAfter settings job stage error | return
    parkJob id stage error retryAfter
  else if stage ≠ .reconcile ∧ retryBudget settings stage ≤ stageAttempts ∧
      allowRecoveryPass = false then
    let _ ← Task.store
      (.markFailedPermanent id
        (.raised
          (.permanent
            (stage.value ++ " retry budget exhausted after " ++
              s!"{stageAttempts} attempts: " ++ error.message))))
  else
    let retryAfter ← retryDelay
      (if error.isTransient then error.retryAfterSeconds else none) stageAttempts
    parkJob id stage error retryAfter

/-- `ReviewWorker._permanent_failure`. -/
def permanentFailure (job : JobRecord) (error : PyError) : Task Unit := do
  let some current ← Task.store (.get job.id) | return
  if current.state = .done || current.state = .superseded ||
      current.state = .failedPermanent then
    return
  let _ ← Task.store (.markFailedPermanent job.id (.raised error))

/-- `ReviewWorker._publish_guard`. -/
def publishGuard (id : JobId) : Task Bool := do
  let status ← Task.store (.refreshPublishGuard id)
  match status with
  | .leaseLost =>
      throw (.leaseLost s!"job {id} lost publish lease before Gerrit POST")
  | .ok => return true
  | .superseded => return false

end Budgets

end PeReview
