import PeReview.Review.Progress

/-!
# The job tables

The rows of `jobs/models.py`.  Every table that refers to `review_jobs` through a
unique or a per-job key is kept with its job, as the ORM relationships of `Job`
do; a publication is addressed by its job, which `uq_review_publications_job`
makes unique.
-/

namespace PeReview

open PeReview.Data

inductive PublicationStatus
  | pending
  | posted
  | ambiguous
  | failed
  deriving DecidableEq, Repr

inductive ProjectReviewStartMode
  | fromNow
  | includeOpen
  deriving DecidableEq, Repr

inductive VoteStatus
  | pending
  | ambiguous
  | applied
  | skipped
  | failed
  deriving DecidableEq, Repr

/-- Membership in `TERMINAL_VOTE_STATES`. -/
def VoteStatus.isTerminal : VoteStatus → Bool
  | .applied | .skipped | .failed => true
  | .pending | .ambiguous => false

/-- One inline comment of a `ReviewInput`. -/
structure ReviewComment where
  message : String
  location : FindingLocation
  deriving DecidableEq, Repr

/-- The Gerrit `ReviewInput` a publication stores and posts. -/
structure ReviewInput where
  message : String
  tag : String
  notify : String
  comments : List ReviewComment
  deriving DecidableEq, Repr

/-- The `ReviewInput` of a Code-Review vote. -/
structure VoteInput where
  message : String
  tag : String
  codeReview : Int
  notify : String := "NONE"
  deriving DecidableEq, Repr

/-- What Gerrit answered to a review or vote, as far as it is recorded. -/
structure GerritResponse where
  recovered : Bool := false
  recoveredAfterSupersession : Bool := false
  codeReview : Option Int := none
  deriving DecidableEq, Repr

structure Attempt where
  stage : AttemptStage
  workerId : WorkerId
  startedAt : Time
  finishedAt : Option Time := none
  success : Option Bool := none
  retryable : Option Bool := none
  errorClass : Option String := none
  errorMessage : Option String := none
  toolEvents : List String := []
  deriving DecidableEq, Repr

/-- A `review_attempts` row by its job and `attempt_number`, which
`uq_review_attempts_number` makes unique. -/
structure AttemptId where
  job : JobId
  number : Nat
  deriving DecidableEq, Repr

structure ReviewFinding where
  ordinal : Nat
  fingerprint : String
  semanticId : String
  lineageState : FindingLineage
  severity : Severity
  category : String
  title : String
  message : String
  impact : String
  evidence : String
  remediation : Option String
  path : String
  side : DiffSide
  startLine : Nat
  startCharacter : Nat
  endLine : Option Nat
  endCharacter : Option Nat
  confidence : Rat
  deriving DecidableEq, Repr

structure ReviewResultRow where
  summary : String
  model : Option String
  inputTokens : Option Nat
  outputTokens : Option Nat
  reviewMetadata : ReviewMetadata
  findings : List ReviewFinding
  deriving DecidableEq, Repr

structure Publication where
  publicationFingerprint : String
  status : PublicationStatus
  findingFingerprints : List String
  requestPayload : ReviewInput
  gerritResponse : Option GerritResponse := none
  lastError : Option String := none
  postedAt : Option Time := none
  deriving DecidableEq, Repr

structure VoteEvent where
  event : String
  attempt : Nat := 0
  accountId : Option Int := none
  detail : Option String := none
  ts : Time
  deriving DecidableEq, Repr

structure ReviewVote where
  value : Option Int
  status : VoteStatus
  reason : String
  findingCount : Option Nat
  accountId : Option Int := none
  attempts : Nat := 0
  retryCount : Nat := 0
  requestPayload : Option VoteInput
  response : Option GerritResponse := none
  lastError : Option String := none
  events : List VoteEvent := []
  deriving DecidableEq, Repr

structure ReviewInvocationRow where
  invocation : Invocation
  attempt : AttemptId
  deriving DecidableEq, Repr

inductive ChunkStatus
  | done
  | split
  deriving DecidableEq, Repr

/-- A v1 checkpoint, now kept only for its usage. -/
structure CandidateChunkCheckpoint where
  parentChunkKey : Option String := none
  status : ChunkStatus
  paths : List String := []
  changeSummary : String := ""
  findings : List Finding := []
  usage : Usage := {}
  deriving DecidableEq, Repr

/-- Its key in the table is the checkpoint version and the chunk key. -/
structure ReviewChunkCheckpoint where
  checkpoint : CandidateChunkCheckpoint
  updatedAt : Time
  deriving DecidableEq, Repr

/-- Its key in the table is the input key of the review. -/
structure ReviewProgressRow where
  payload : ReviewProgress
  updatedAt : Time
  deriving DecidableEq, Repr

/-- The `project_review_policy` column: the marker the migration wrote into jobs
that had started before the feature, or a bound policy. -/
inductive PolicyColumn
  | legacyPreFeature
  | bound (policy : ProjectReviewPolicy)
  deriving DecidableEq, Repr

structure Job where
  project : String
  changeNumber : Int
  patchsetNumber : Int
  revisionSha : String
  reviewPolicyVersion : String
  projectReviewPolicy : Option PolicyColumn := none
  state : JobState := .received
  retryState : Option JobState := none
  eventPayload : GerritPatchsetEvent
  attemptCount : Nat := 0
  retryEpochStartAttempt : Nat := 0
  nextAttemptAt : Time
  leaseOwner : Option WorkerId := none
  leaseExpiresAt : Option Time := none
  lastErrorClass : Option String := none
  lastError : Option String := none
  supersededByJobId : Option JobId := none
  createdAt : Time
  attempts : List Attempt := []
  result : Option ReviewResultRow := none
  publication : Option Publication := none
  vote : Option ReviewVote := none
  progress : Dict String ReviewProgressRow := []
  invocations : List ReviewInvocationRow := []
  chunkCheckpoints : Dict (String × String) ReviewChunkCheckpoint := []
  deriving DecidableEq, Repr

structure ManagedProject where
  project : String
  enabled : Bool := true
  reviewLanguage : String := "INHERIT"
  autoCodeReview : Bool := false
  policyGeneration : Nat := 0
  reviewStartMode : ProjectReviewStartMode := .fromNow
  reviewStartAt : Option Time
  createdAt : Time
  updatedAt : Time
  deriving DecidableEq, Repr

/-- The database, as far as jobs and managed projects go. -/
structure Store where
  jobs : List Job := []
  projects : List ManagedProject := []
  deriving DecidableEq, Repr

/-- `JobRecord`: a snapshot of a job's row. -/
structure JobRecord where
  id : JobId
  project : String
  changeNumber : Int
  patchsetNumber : Int
  revisionSha : String
  reviewPolicyVersion : String
  state : JobState
  retryState : Option JobState
  attemptCount : Nat
  nextAttemptAt : Time
  leaseOwner : Option WorkerId
  leaseExpiresAt : Option Time
  eventPayload : GerritPatchsetEvent
  supersededByJobId : Option JobId
  retryEpochStartAttempt : Nat
  projectReviewPolicy : Option PolicyColumn
  deriving DecidableEq, Repr

/-- `_record`. -/
def Job.record (id : JobId) (job : Job) : JobRecord :=
  { id
    project := job.project
    changeNumber := job.changeNumber
    patchsetNumber := job.patchsetNumber
    revisionSha := job.revisionSha
    reviewPolicyVersion := job.reviewPolicyVersion
    state := job.state
    retryState := job.retryState
    attemptCount := job.attemptCount
    nextAttemptAt := job.nextAttemptAt
    leaseOwner := job.leaseOwner
    leaseExpiresAt := job.leaseExpiresAt
    eventPayload := job.eventPayload
    supersededByJobId := job.supersededByJobId
    retryEpochStartAttempt := job.retryEpochStartAttempt
    projectReviewPolicy := job.projectReviewPolicy }

def Job.sameChange (job other : Job) : Bool :=
  job.project = other.project && job.changeNumber = other.changeNumber

/-- `_needs_publish_recovery`: a review of this job may already have reached
Gerrit, or be about to. -/
def Job.needsPublishRecovery (job : Job) : Bool :=
  job.state = .publishing ||
    (job.state = .retryWait && job.retryState = some .publishing)

end PeReview
