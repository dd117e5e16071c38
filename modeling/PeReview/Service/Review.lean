import PeReview.Gerrit.Client
import PeReview.Service.Policy

/-!
# A review pass

`_process_review`, `_recover_completed_review` and `_promote_review_result` of
`ReviewWorker`.
-/

namespace PeReview

open PeReview.Process

/-- A worker: its settings, the hashes of its identifiers, and the review engine
for each output language. -/
structure ReviewWorker where
  settings : Settings
  hashes : Hashes
  engine : String → ReviewEngine

/-- `raise TransientError(...) from exc` of the progress backend. -/
def PyError.wrapped (context : String) (error : PyError) : PyError :=
  .transient (context ++ ": " ++ error.message)

/-- One transaction of `PostgresProgressBackend`. -/
def backendCall (context : String) (call : StoreCall) :
    Program Call Answer (Except PyError call.Result) :=
  (Program.perform (Call.store call)).bind fun
    | .ok value => .done (.ok value)
    | .error error => .done (.error (error.wrapped context))

/-- `PostgresProgressBackend` and `tool_trace`; a recovery probe has no attempt
and no trace. -/
def answerEngine (id : JobId) (attempt : Option AttemptId) :
    (request : EngineCall) → Program Call Answer (EngineAnswer request)
  | .load inputKey =>
      backendCall "failed to load review progress" (.loadProgress id inputKey)
  | .save progress =>
      backendCall "failed to persist review progress" (.saveProgress id progress)
  | .recordInvocation invocation =>
      backendCall "failed to persist review invocation"
        (.recordInvocation id attempt invocation)
  | .totals =>
      backendCall "failed to read invocation audit totals" (.invocationTotals id)
  | .legacy => Program.perform (Call.store (.legacyUsage id))
  | .toolTrace event =>
      match attempt with
      | none => .done ()
      | some attempt =>
          (Program.perform (Call.store (.appendAttemptToolEvent attempt event))).bind
            fun _ => .done ()
  | .ask request => Program.perform (Call.ask request)

def runEngine {Value : Type} (id : JobId) (attempt : Option AttemptId)
    (program : EngineProgram Value) : Task Value :=
  ExceptT.mk (program.handle (answerEngine id attempt))

/-- `RepositoryManager.to_review_context`, with the history of the change. -/
def toReviewContext (workspace : RepositoryWorkspace) (job : JobRecord)
    (change : GerritChange) (policyText : String) (history : FindingHistory) :
    ReviewContext :=
  { project := workspace.project
    changeNumber := job.changeNumber
    patchsetNumber := job.patchsetNumber
    revisionSha := workspace.revisionSha
    baseRevisionSha := workspace.baseRevisionSha
    subject := change.subject
    branch := change.branch
    commitMessage := change.commitMessage
    diff := workspace.diff
    changedFiles := workspace.changedFiles
    changedLines := workspace.changedLines
    policyText
    repositoryRoot := workspace.root
    previousFindings := history.previousFindings
    historicalFindings := history.historicalFindings
    previousPatchsetNumber := history.baselinePatchset
    skipReason := workspace.skipReason }

/-- The metadata `_promote_review_result` adds. -/
def withPolicyMetadata (policy : Option ProjectReviewPolicy)
    (review : ReviewResult) : ReviewResult :=
  match policy with
  | none => review
  | some policy =>
      { review with
        reviewMetadata :=
          { review.reviewMetadata with
            outputLanguage := some policy.outputLanguage
            projectReviewPolicy := some policy } }

/-- The reconciliation `_promote_review_result` makes. -/
def reconcileReview (digest : Digest) (project : String)
    (history : FindingHistory) (review : ReviewResult) : ReviewResult :=
  let lineageComplete := review.reviewMetadata.lineageComplete.getD true
  if lineageComplete || review.reviewMetadata.reviewBudget.isSome then
    (reconcileFindingLineage digest project review history lineageComplete).review
  else review

section Reviewing

variable (worker : ReviewWorker)

/-- A reviewed job enters `VALIDATING`. -/
def enterValidating (job : JobRecord) : Task JobRecord :=
  if job.state = .validating then pure job
  else if job.state = .reviewing then
    Task.store (.transition job.id .validating false)
  else
    throw
      (.runtime ("completed review cannot be promoted from " ++ job.state.value))

/-- `ReviewWorker._promote_review_result`. -/
def promoteReviewResult (job : JobRecord) (review : ReviewResult)
    (history : FindingHistory) : Task ReviewResult := do
  let policy ← ExceptT.mk (.done job.reviewPolicy)
  let review :=
    reconcileReview worker.hashes.toDigest job.project history
      (withPolicyMetadata policy review)
  ensureLease job
  let job ← enterValidating job
  ensureLease job
  let _ ← Task.store (.saveReviewResultAndMarkReady job.id review)
  return review

/-- `ReviewWorker._recover_completed_review`: whether a completed review was
found and promoted. -/
def recoverCompletedReview (job : JobRecord) (context : ReviewContext)
    (history : FindingHistory) (engine : ReviewEngine) : Task Bool := do
  let recovered ← runEngine job.id none (engine.recoverCompleted context)
  match recovered with
  | none => return false
  | some review =>
      let _ ← promoteReviewResult worker job review history
      return true

/-- A recovery probe of `_process_review`; a transient failure schedules a
recovery pass.  The answer is whether the pass is over. -/
def probeCompletedReview (job : JobRecord) (context : ReviewContext)
    (history : FindingHistory) (engine : ReviewEngine) : Task Bool :=
  tryCatch (recoverCompletedReview worker job context history engine)
    fun error => do
      if error.isTransient then
        scheduleRetry worker.settings job.id .review error true
        return true
      else throw error

/-- The REVIEW attempt of `_process_review`. -/
def attemptReview (job : JobRecord) (context : ReviewContext)
    (history : FindingHistory) (engine : ReviewEngine) : Task Unit := do
  let allowed ← canStartAttempt worker.settings job .review
  if !allowed then return
  let reviewAttempt ← startAttempt job .review
  tryCatch
    (do
      let review ←
        runEngine job.id (some reviewAttempt) (engine.review context)
      let _ ← promoteReviewResult worker job review history
      -- Only now: a crash before this point consumes the retry budget.
      finishAttempt reviewAttempt true)
    fun error => do
      if error.isTransient then
        finishAttemptIfOpen reviewAttempt false (some true) (some error)
        -- The commit of the final progress may have been lost on the way back.
        let isOver ← probeCompletedReview worker job context history engine
        if !isOver then throw error
      else
        finishAttemptIfOpen reviewAttempt false (some false) (some error)
        throw error

/-- `async with` of a workspace: the clean-up runs in any case, and its exception
replaces that of the block. -/
def withWorkspace {Locals Value : Type} (job : JobRecord)
    (ref : Option String)
    (body : RepositoryWorkspace → Task.Block Locals Value) :
    Task.Block Locals Value := do
  let workspace : RepositoryWorkspace ← Task.block
    (ExceptT.mk
      (Program.perform
        (Call.openWorkspace job.project job.changeNumber job.revisionSha ref)))
  ExceptT.mk fun locals =>
    ((body workspace).run locals).bind fun (result, final) =>
      (Program.perform (Call.closeWorkspace workspace.root)).bind fun
        | .ok () => .done (result, final)
        | .error error => .done (.error error, final)

/-- `self.repos.read_text_at_revision` for the baseline of a workspace. -/
def readBaselineText (workspace : RepositoryWorkspace) (path : String)
    (maxBytes : Nat) : Task (Option String) :=
  ExceptT.mk
    (Program.perform (Call.readTextAtRevision workspace.root path maxBytes))

/-- What `_process_review` does in the workspace once the FETCH attempt is
closed. -/
def reviewWorkspace (job : JobRecord) (change : GerritChange)
    (workspace : RepositoryWorkspace) : Task Unit := do
  let policy : ProjectReviewPolicy ← Task.store
    (.bindProjectReviewPolicy job.id worker.settings.outputLanguage)
  let job := { job with projectReviewPolicy := some (.bound policy) }
  let engine := worker.engine policy.outputLanguage
  let policyText ← loadPolicy worker.settings workspace.baseRevisionSha
    (readBaselineText workspace)
  let history : FindingHistory ← Task.store (.loadFindingHistory job.id)
  let context := toReviewContext workspace job change policyText history
  let isOver ← probeCompletedReview worker job context history engine
  if !isOver then
    attemptReview worker job context history engine

/-- The try block of `_process_review`; its local variable is `failure_stage`. -/
def fetchAndReview (job : JobRecord) (fetchAttempt : AttemptId) :
    Task.Block AttemptStage Unit := do
  let change ← Task.block (ensureCurrentRevision job)
  let ref := if truthy job.eventPayload.ref then job.eventPayload.ref else change.ref
  withWorkspace job ref fun workspace => do
    Task.block (ensureLease job)
    Task.block (finishAttempt fetchAttempt true)
    let job ← Task.block (moveFrom job .fetching .reviewing)
    set AttemptStage.review
    Task.block (reviewWorkspace worker job change workspace)

/-- The handlers of `_process_review`. -/
def recoverReview (job : JobRecord) (fetchAttempt : AttemptId)
    (failureStage : AttemptStage) (error : PyError) : Task Unit := do
  if error.cls = .supersededRevisionError then
    finishAttemptIfOpen fetchAttempt true
    let _ ← Task.store (.markSuperseded job.id none)
  else if error.isTransient then
    finishAttemptIfOpen fetchAttempt false (some true) (some error)
    scheduleRetry worker.settings job.id failureStage error
  else if error.isPermanent then
    finishAttemptIfOpen fetchAttempt false (some false) (some error)
    permanentFailure job error
  else throw error

/-- `ReviewWorker._process_review`. -/
def processReview (job : JobRecord) : Task Unit := do
  let job ← moveFrom job .received .fetching
  let allowed ← canStartAttempt worker.settings job .fetch
  if !allowed then return
  let fetchAttempt ← startAttempt job .fetch
  Task.tryWith .fetch (fetchAndReview worker job fetchAttempt)
    (recoverReview worker job fetchAttempt)

end Reviewing

end PeReview
