import PeReview.Gerrit.ReviewInput
import PeReview.Service.Policy
import PeReview.Service.Voting

/-!
# Publication

`_process_publish`, `_complete_comment_publication` and
`_resolve_superseded_publish` of `ReviewWorker`.
-/

namespace PeReview

open PeReview.Process

section Publishing

variable (settings : Settings)

/-- `ReviewWorker._effective_review_tag`. -/
def effectiveReviewTag (job : JobRecord) : String :=
  settings.reviewTag ++ "~" ++ job.reviewPolicyVersion

/-- `ReviewWorker._publication_tag`. -/
def publicationTag (job : JobRecord) (payload : ReviewInput) : String :=
  if payload.tag ≠ "" then payload.tag else effectiveReviewTag settings job

/-- `ReviewWorker._complete_comment_publication`. -/
def completeCommentPublication (job : JobRecord) (review : ReviewResult)
    (gerritResponse : Option GerritResponse) (allowVote : Bool := true)
    (voteSkipReason : Option String := none) : Task Unit := do
  let policy ← ExceptT.mk (.done job.reviewPolicy)
  match policy with
  | none =>
      let _ ← Task.store
        (.completePublicationAndMarkDone job.id job.id gerritResponse false)
  | some policy =>
      if job.state ≠ .publishing then
        let _ ← Task.store
          (.completePublicationAndMarkDone job.id job.id gerritResponse false)
      else
        let decision := decideCodeReviewVote (some policy) review
        let _ ← Task.store
          (.ensureVote job.id decision
            (votePayload job.id policy decision review
              (effectiveReviewTag settings job)))
        let job ← Task.store
          (.completePublicationAndMarkDone job.id job.id gerritResponse true)
        let _ ← publishVote settings job allowVote voteSkipReason

/-- The lookup of `_resolve_superseded_publish`: whether Gerrit has the review, or
`none` when nothing more is to be done in this pass. -/
def lookupSuperseded (job : JobRecord) (publication : Publication)
    (attempt : AttemptId) : Task (Option Bool) :=
  tryCatch
    (do
      let posted ← hasPublishedReview job publication.requestPayload.message
        (publicationTag settings job publication.requestPayload)
      finishAttempt attempt true
      return some posted)
    fun error => do
      if error.isTransient then
        finishAttemptIfOpen attempt false (some true) (some error)
        scheduleRetry settings job.id .reconcile error
        return none
      else if error.isPermanent then
        if publication.status = .ambiguous then
          finishAttemptIfOpen attempt false (some true) (some error)
          scheduleRetry settings job.id .reconcile error
          return none
        else
          finishAttemptIfOpen attempt false (some false) (some error)
          let _ ← Task.store (.markSuperseded job.id none)
          return none
      else throw error

/-- `ReviewWorker._resolve_superseded_publish`, once the publication is known to
be unresolved. -/
def reconcileSuperseded (job : JobRecord) (review : ReviewResult)
    (publication : Publication) : Task Unit := do
  let allowed ← canStartAttempt settings job .reconcile
  if !allowed then return
  let attempt ← startAttempt job .reconcile
  let alreadyPosted ← lookupSuperseded settings job publication attempt
  match alreadyPosted with
  | none => return
  | some true =>
      completeCommentPublication settings job review
        (some { recoveredAfterSupersession := true }) false
  | some false =>
      let _ ← Task.store (.markSuperseded job.id none)

/-- `ReviewWorker._resolve_superseded_publish`. -/
def resolveSupersededPublish (job : JobRecord) (review : ReviewResult)
    (publication : Option Publication) : Task Unit := do
  match publication with
  | none =>
      let _ ← Task.store (.markSuperseded job.id none)
  | some publication =>
      match publication.status with
      | .posted =>
          completeCommentPublication settings job review
            publication.gerritResponse false
      | .failed =>
          let _ ← Task.store (.markSuperseded job.id none)
      | .pending | .ambiguous =>
          reconcileSuperseded settings job review publication

/-- The local variables the handlers of `_process_publish` read. -/
structure PublishLocals where
  reconcileAttempt : Option AttemptId := none
  publishAttempt : Option AttemptId := none
  postStarted : Bool := false
  reconciliationObservedAbsent : Bool := false
  deriving DecidableEq, Repr

/-- The second half of the try block of `_process_publish`: nothing of this
publication has reached Gerrit yet. -/
def postPublication (job : JobRecord) (review : ReviewResult)
    (publication : Publication) (reconcileAttempt : AttemptId) :
    Task.Block PublishLocals Unit := do
  let publishChange ← Task.block (ensureCurrentRevision job true)
  Task.block (finishAttempt reconcileAttempt true)
  modify fun locals => { locals with reconcileAttempt := none }
  let allowed ← Task.block (canStartAttempt settings job .publish)
  if !allowed then return
  let publishAttempt ← Task.block (startAttempt job .publish)
  modify fun locals => { locals with publishAttempt := some publishAttempt }
  Task.block (ensureLease job)
  -- The uncertainty marker is committed before the side effect starts.
  let _ : Unit ← Task.block
    (Task.store
      (.markPublicationAmbiguous job.id
        "Gerrit POST started; outcome not yet durably confirmed"))
  modify fun locals => { locals with postStarted := true }
  let response ← Task.block
    (publishReviewInput job (sendReview job publication.requestPayload)
      (publishGuard job.id) true)
  Task.block (finishAttempt publishAttempt true)
  Task.block
    (completeCommentPublication settings job review (some response)
      (publishChange.status = "NEW")
      (if publishChange.status = "MERGED" then
        some
          ("Change merged after review; comments were published and no " ++
            "Code-Review vote was sent.")
      else none))

/-- The try block of `_process_publish`. -/
def reconcileAndPost (job : JobRecord) (review : ReviewResult)
    (publication : Publication) : Task.Block PublishLocals Unit := do
  let allowed ← Task.block (canStartAttempt settings job .reconcile)
  if !allowed then return
  let reconcileAttempt ← Task.block (startAttempt job .reconcile)
  modify fun locals =>
    { locals with reconcileAttempt := some reconcileAttempt }
  Task.block (ensureLease job)
  let alreadyPosted ← Task.block
    (hasPublishedReview job publication.requestPayload.message
      (publicationTag settings job publication.requestPayload))
  if alreadyPosted then
    Task.block (finishAttempt reconcileAttempt true)
    Task.block
      (completeCommentPublication settings job review
        (some { recovered := true }))
  else
    modify fun locals => { locals with reconciliationObservedAbsent := true }
    postPublication settings job review publication reconcileAttempt

/-- The handlers of `_process_publish`. -/
def recoverPublish (job : JobRecord) (publication : Publication)
    (locals : PublishLocals) (error : PyError) : Task Unit := do
  if error.cls = .supersededRevisionError then
    finishStarted locals.reconcileAttempt true
    finishStarted locals.publishAttempt true
    let _ ← Task.store (.markSuperseded job.id none)
  else if error.isTransient then
    if locals.reconcileAttempt.isSome then
      finishStarted locals.reconcileAttempt false (some true) (some error)
      scheduleRetry settings job.id .reconcile error
    else
      finishStarted locals.publishAttempt false (some true) (some error)
      if locals.postStarted then
        let _ : Unit ← Task.store
          (.markPublicationAmbiguous job.id error.message)
        scheduleRetry settings job.id .publish error true
      else scheduleRetry settings job.id .publish error
  else if error.isPermanent then
    if locals.reconcileAttempt.isSome ∧ publication.status = .ambiguous ∧
        locals.reconciliationObservedAbsent = false then
      finishStarted locals.reconcileAttempt false (some true) (some error)
      scheduleRetry settings job.id .reconcile error
    else
      let _ : Unit ← Task.store (.markPublicationFailed job.id error.message)
      finishStarted locals.reconcileAttempt false (some false) (some error)
      finishStarted locals.publishAttempt false (some false) (some error)
      permanentFailure job error
  else throw error

/-- The stored publication, or one begun with the inline findings of the review. -/
def startPublication (job : JobRecord) (review : ReviewResult) :
    Option Publication → Task Publication
  | some publication => pure publication
  | none => do
      let inlineFindings :=
        (findingsForInlinePublication review).take settings.maxFindings
      let payload ← ExceptT.mk
        (.done
          (buildReviewInput { review with findings := inlineFindings }
            (effectiveReviewTag settings job) settings.notify
            settings.maxCommentBytes))
      Task.store
        (.beginPublication job.id payload
          (inlineFindings.map fun finding => finding.fingerprint.getD ""))

/-- The rest of `_process_publish` for the latest patch set: begin the
publication, and bring it to an end. -/
def publishLatest (job : JobRecord) (review : ReviewResult)
    (stored : Option Publication) : Task Unit := do
  let job ← moveFrom job .readyToPublish .publishing
  let publication ← startPublication settings job review stored
  match publication.status with
  | .posted =>
      completeCommentPublication settings job review publication.gerritResponse
  | .failed =>
      permanentFailure job
        (.permanent
          (if truthy publication.lastError then publication.lastError.getD ""
          else "durable Gerrit publication is permanently failed"))
  | .pending | .ambiguous =>
      Task.tryWith {} (reconcileAndPost settings job review publication)
        (recoverPublish settings job publication)

/-- `ReviewWorker._process_publish`. -/
def processPublish (job : JobRecord) : Task Unit := do
  let stored : Option ReviewResult ← Task.store (.loadReviewResult job.id)
  let some review := stored
    | permanentFailure job
        (.permanent "publishable job is missing durable review result")
  let publication : Option Publication ←
    Task.store (.publicationForJob job.id)
  let latest : Bool ← Task.store (.isLatestKnownPatchset job.id)
  if latest then publishLatest settings job review publication
  else resolveSupersededPublish settings job review publication

end Publishing

end PeReview
