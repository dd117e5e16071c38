import Mathlib.Data.List.Dedup
import Mathlib.Data.List.Sort
import PeReview.Jobs.Store.Transitions

/-!
# Durable review results

`save_review_result_and_mark_ready`, `load_review_result`, the v1 chunk
checkpoints and `load_finding_history` of `JobStore`.
-/

namespace PeReview

open PeReview.Data

/-- The row of one finding, once its identifiers are ensured. -/
def ReviewFinding.ofFinding (ordinal : Nat) (finding : Finding) :
    ReviewFinding :=
  { ordinal
    fingerprint := finding.fingerprint.getD ""
    semanticId := finding.semanticId.getD ""
    lineageState := finding.lineage.getD .new
    severity := finding.severity
    category := finding.category
    title := finding.title
    message := finding.message
    impact := finding.impact
    evidence := finding.evidence
    remediation := finding.remediation
    path := finding.location.path
    side := finding.location.side
    startLine := finding.location.startLine
    startCharacter := finding.location.startCharacter
    endLine := finding.location.endLine
    endCharacter := finding.location.endCharacter
    confidence := finding.confidence }

/-- `_finding_from_row`. -/
def ReviewFinding.toFinding (row : ReviewFinding) : Finding :=
  { severity := row.severity
    category := row.category
    title := row.title
    message := row.message
    impact := row.impact
    evidence := row.evidence
    remediation := row.remediation
    location :=
      { path := row.path
        side := row.side
        startLine := row.startLine
        startCharacter := row.startCharacter
        endLine := row.endLine
        endCharacter := row.endCharacter }
    confidence := row.confidence
    fingerprint := some row.fingerprint
    semanticId := some row.semanticId
    lineage := some row.lineageState }

/-- The loop over `review.findings`: a repeated fingerprint keeps its first row. -/
def findingRows (digest : Digest) (project : String) :
    Nat → List String → List Finding → List ReviewFinding
  | _, _, [] => []
  | ordinal, seen, finding :: rest =>
      let finding :=
        (finding.ensureFingerprint digest project).ensureSemanticId digest project
      let fingerprint := finding.fingerprint.getD ""
      if seen.contains fingerprint then
        findingRows digest project (ordinal + 1) seen rest
      else
        ReviewFinding.ofFinding ordinal finding ::
          findingRows digest project (ordinal + 1) (fingerprint :: seen) rest

def ReviewResultRow.ofReview (digest : Digest) (project : String)
    (review : ReviewResult) : ReviewResultRow :=
  { summary := review.summary
    model := review.model
    inputTokens := review.inputTokens
    outputTokens := review.outputTokens
    reviewMetadata := review.reviewMetadata
    findings := findingRows digest project 0 [] review.findings }

/-- The review a row stores.  Its findings are kept in the order of their
ordinals. -/
def ReviewResultRow.toReview (row : ReviewResultRow) : ReviewResult :=
  { summary := row.summary
    model := row.model
    inputTokens := row.inputTokens
    outputTokens := row.outputTokens
    reviewMetadata := row.reviewMetadata
    findings := row.findings.map ReviewFinding.toFinding }

/-- The review of the job is never resumed. -/
def Job.isPrunable (job : Job) : Bool :=
  job.state = .done || job.state = .superseded

/-- The two deletions of `JobStore.prune_review_recovery_cache` in the rows of one job. -/
def Job.pruned (job : Job) (now : Time) (retentionDays : Nat) : Job :=
  let kept (updatedAt : Time) : Bool := now < updatedAt + retentionDays * day
  if job.isPrunable then
    { job with
      chunkCheckpoints := job.chunkCheckpoints.filter fun row => kept row.2.updatedAt
      progress := job.progress.filter fun row => kept row.2.updatedAt }
  else job

namespace Store

/-- `JobStore.load_candidate_chunk_checkpoints`. -/
def loadCandidateChunkCheckpoints (store : Store) (id : JobId)
    (checkpointVersion : String) : Dict String CandidateChunkCheckpoint :=
  match store.jobs[id]? with
  | none => []
  | some job =>
      (job.chunkCheckpoints.filter fun row => row.1.1 = checkpointVersion).map
        fun row => (row.1.2, row.2.checkpoint)

/-- `JobStore.save_candidate_chunk_checkpoint`. -/
def saveCandidateChunkCheckpoint (store : Store) (now : Time) (id : JobId)
    (worker : WorkerId) (checkpointVersion chunkKey : String)
    (checkpoint : CandidateChunkCheckpoint) : Except PyError (Store × Unit) :=
  store.onJob id fun job => do
    job.requireLiveLease id worker now
    .ok
      ({ job with
        chunkCheckpoints :=
          Dict.set job.chunkCheckpoints (checkpointVersion, chunkKey)
            { checkpoint, updatedAt := now } },
        ())

def cachedRows (store : Store) : Nat :=
  store.jobs.foldl
    (fun count job => count + job.chunkCheckpoints.length + job.progress.length) 0

/-- `JobStore.prune_review_recovery_cache`: the store that is left, and the number of rows
that were deleted. -/
def pruneReviewRecoveryCache (store : Store) (now : Time) (retentionDays : Nat) :
    Store × Nat :=
  let pruned := { store with jobs := store.jobs.map fun job => job.pruned now retentionDays }
  (pruned, store.cachedRows - pruned.cachedRows)

/-- `JobStore.save_review_result_and_mark_ready`. -/
def saveReviewResultAndMarkReady (store : Store) (digest : Digest) (now : Time)
    (id : JobId) (review : ReviewResult) (worker : WorkerId) :
    Except PyError (Store × JobRecord) :=
  store.onJob id fun job => do
    job.requireLiveLease id worker now
    if job.state = .readyToPublish then
      Except.require job.result.isSome
        (.runtime "READY_TO_PUBLISH job is missing its durable review result")
      .ok (job, job.record id)
    else
      requireTransition job.state .readyToPublish
      let job :=
        { job with
          result :=
            match job.result with
            | some existing => some existing
            | none => some (.ofReview digest job.project review)
          state := .readyToPublish
          retryState := none
          leaseOwner := none
          leaseExpiresAt := none
          lastError := none
          lastErrorClass := none }
      .ok (job, job.record id)

/-- `JobStore.load_review_result`. -/
def loadReviewResult (store : Store) (id : JobId) : Option ReviewResult :=
  (store.jobs[id]?).bind fun job => job.result.map ReviewResultRow.toReview

/-- The reviews of earlier patch sets of the change that reached `DONE` under
the same policy version. -/
def isEarlierReview (job other : Job) : Bool :=
  other.project = job.project && other.changeNumber = job.changeNumber &&
    other.reviewPolicyVersion = job.reviewPolicyVersion &&
    other.patchsetNumber < job.patchsetNumber && other.state = .done

/-- The newest earlier review whose `lineage_complete` is not false. -/
def baselineJob (store : Store) (job : Job) : Option Job :=
  firstBy Job.isMoreRecent
    (store.jobs.filter fun other =>
      isEarlierReview job other &&
        match other.result with
        | none => false
        | some result => result.reviewMetadata.lineageComplete ≠ some false)

/-- The findings of every earlier review, with their patch-set numbers. -/
def earlierFindings (store : Store) (job : Job) : List (Int × ReviewFinding) :=
  (store.jobs.filter (isEarlierReview job)).flatMap fun other =>
    match other.result with
    | none => []
    | some result =>
        result.findings.map fun finding => (other.patchsetNumber, finding)

/-- `ORDER BY patchset_number DESC, ordinal ASC LIMIT 200`. -/
def historicalRows (store : Store) (job : Job) : List (Int × ReviewFinding) :=
  ((store.earlierFindings job).insertionSort fun row other =>
    other.1 < row.1 ∨ (row.1 = other.1 ∧ row.2.ordinal ≤ other.2.ordinal)).take 200

/-- The loop over the historical rows, up to twenty findings that are neither in
the baseline nor repeated. -/
def historicalFindings (previousIds : List String) :
    Nat → List String → List ReviewFinding → List Finding
  | 0, _, _ => []
  | _, _, [] => []
  | room + 1, taken, row :: rest =>
      if previousIds.contains row.semanticId || taken.contains row.semanticId then
        historicalFindings previousIds (room + 1) taken rest
      else
        row.toFinding ::
          historicalFindings previousIds room (row.semanticId :: taken) rest

/-- `JobStore.load_finding_history`. -/
def loadFindingHistory (store : Store) (id : JobId) :
    Except PyError FindingHistory :=
  match store.jobs[id]? with
  | none => .error (.key id)
  | some job =>
      let baseline := store.baselineJob job
      let previous :=
        match baseline.bind Job.result with
        | none => []
        | some result => result.findings.map ReviewFinding.toFinding
      .ok
        { baselinePatchset := baseline.map Job.patchsetNumber
          previousFindings := previous
          seenSemanticIds :=
            ((store.earlierFindings job).map fun row => row.2.semanticId).dedup
          historicalFindings :=
            historicalFindings (previous.filterMap Finding.semanticId) 20 []
              ((store.historicalRows job).map Prod.snd) }

end Store

end PeReview
