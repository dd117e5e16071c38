import PeReview.Data.Text
import PeReview.Retry

/-!
# Domain values

The values of `domain.py`, the usage and coverage records of
`review/progress.py`, and the per-job policy of `review/project_policy.py`.
-/

namespace PeReview

abbrev WorkerId := String

/-- A job's row in `review_jobs`, by insertion order. -/
abbrev JobId := Nat

inductive JobState
  | received
  | fetching
  | reviewing
  | validating
  | readyToPublish
  | publishing
  | retryWait
  | failedTransient
  | failedPermanent
  | superseded
  | skippedScope
  | done
  deriving DecidableEq, Repr

/-- `JobState.value`. -/
def JobState.value : JobState → String
  | .received => "RECEIVED"
  | .fetching => "FETCHING"
  | .reviewing => "REVIEWING"
  | .validating => "VALIDATING"
  | .readyToPublish => "READY_TO_PUBLISH"
  | .publishing => "PUBLISHING"
  | .retryWait => "RETRY_WAIT"
  | .failedTransient => "FAILED_TRANSIENT"
  | .failedPermanent => "FAILED_PERMANENT"
  | .superseded => "SUPERSEDED"
  | .skippedScope => "SKIPPED_SCOPE"
  | .done => "DONE"

/-- Membership in `TERMINAL_JOB_STATES`. -/
def JobState.isTerminal : JobState → Bool
  | .failedPermanent | .superseded | .skippedScope | .done => true
  | _ => false

inductive AttemptStage
  | fetch
  | review
  | validate
  | publish
  | reconcile
  deriving DecidableEq, Repr

/-- `AttemptStage.value`. -/
def AttemptStage.value : AttemptStage → String
  | .fetch => "FETCH"
  | .review => "REVIEW"
  | .validate => "VALIDATE"
  | .publish => "PUBLISH"
  | .reconcile => "RECONCILE"

inductive Severity
  | p0
  | p1
  | p2
  deriving DecidableEq, Repr

def Severity.value : Severity → String
  | .p0 => "P0"
  | .p1 => "P1"
  | .p2 => "P2"

inductive FindingLineage
  | new
  | persisting
  | reopened
  deriving DecidableEq, Repr

inductive DiffSide
  | revision
  | parent
  deriving DecidableEq, Repr

/-- A Gerrit `patchset-created` event, as enqueued. -/
structure GerritPatchsetEvent where
  project : String
  changeNumber : Int
  patchsetNumber : Int
  revisionSha : String
  ref : Option String := none
  branch : Option String := none
  changeId : Option String := none
  uploader : Option String := none
  occurredAt : Option Time := none
  deriving DecidableEq, Repr

structure FindingLocation where
  path : String
  side : DiffSide := .revision
  startLine : Nat
  startCharacter : Nat := 0
  endLine : Option Nat := none
  endCharacter : Option Nat := none
  deriving DecidableEq, Repr

/-- `FindingLocation.validate_range`. -/
def FindingLocation.validateRange (location : FindingLocation) :
    Except PyError FindingLocation :=
  match location.endLine with
  | none =>
      if location.endCharacter.isSome then
        .error (.value "end_character requires end_line")
      else .ok location
  | some endLine =>
      if endLine < location.startLine then
        .error (.value "end_line cannot precede start_line")
      else if endLine = location.startLine then
        match location.endCharacter with
        | none =>
            .ok { location with
              endCharacter := some (location.startCharacter + 1) }
        | some endCharacter =>
            if endCharacter ≤ location.startCharacter then
              .error (.value "end_character cannot precede start_character")
            else .ok location
      else .ok location

structure Finding where
  severity : Severity
  category : String
  title : String
  message : String
  impact : String
  evidence : String
  remediation : Option String := none
  location : FindingLocation
  /-- A JSON number between 0 and 1. -/
  confidence : Rat := 1
  fingerprint : Option String := none
  semanticId : Option String := none
  lineage : Option FindingLineage := none
  deriving DecidableEq, Repr

/-- What `ensure_fingerprint` hashes. -/
structure FingerprintPayload where
  project : String
  path : String
  side : DiffSide
  line : Nat
  category : String
  title : String
  evidence : String
  deriving DecidableEq, Repr

/-- What `ensure_semantic_id` hashes. -/
structure SemanticPayload where
  project : String
  path : String
  category : String
  title : String
  message : String
  deriving DecidableEq, Repr

/-- The text normalisation and the hashes of the identifiers: SHA-256 over the
canonical JSON of a payload, cut to 32 hexadecimal digits. -/
structure Digest where
  normalizeText : String → String
  fingerprint : FingerprintPayload → String
  semanticId : SemanticPayload → String

/-- Python's truth value of an optional string. -/
def truthy : Option String → Bool
  | none => false
  | some value => value ≠ ""

namespace Finding

/-- `Finding.ensure_fingerprint`. -/
def ensureFingerprint (digest : Digest) (project : String)
    (finding : Finding) : Finding :=
  if truthy finding.fingerprint then finding
  else
    { finding with
      fingerprint := some <| digest.fingerprint
        { project
          path := finding.location.path
          side := finding.location.side
          line := finding.location.startLine
          category := digest.normalizeText finding.category
          title := digest.normalizeText finding.title
          evidence := digest.normalizeText finding.evidence } }

/-- `Finding.ensure_semantic_id`. -/
def ensureSemanticId (digest : Digest) (project : String)
    (finding : Finding) : Finding :=
  if truthy finding.semanticId then finding
  else
    { finding with
      semanticId := some <| digest.semanticId
        { project
          path := finding.location.path
          category := digest.normalizeText finding.category
          title := digest.normalizeText finding.title
          message := digest.normalizeText finding.message } }

/-- The identifier a finding carries once `ensure_semantic_id` has run. -/
def semanticKey (digest : Digest) (project : String) (finding : Finding) :
    String :=
  ((finding.ensureSemanticId digest project).semanticId).getD ""

theorem ensureSemanticId_semanticId (digest : Digest) (project : String)
    (finding : Finding) :
    (finding.ensureSemanticId digest project).semanticId =
      some (finding.semanticKey digest project) := by
  unfold semanticKey ensureSemanticId
  split
  · rename_i present
    cases known : finding.semanticId with
    | none => simp [known, truthy] at present
    | some value => simp
  · rfl

theorem semanticKey_of_some {digest : Digest} {project : String}
    {finding : Finding} {value : String}
    (known : finding.semanticId = some value) (nonempty : value ≠ "") :
    finding.semanticKey digest project = value := by
  simp [semanticKey, ensureSemanticId, truthy, known, nonempty]

end Finding

/-- Operational charges (`review/progress.py`). -/
structure Usage where
  llmCalls : Nat := 0
  toolCalls : Nat := 0
  inputTokens : Nat := 0
  outputTokens : Nat := 0
  deriving DecidableEq, Repr

/-- `Usage.add`. -/
def Usage.add (usage other : Usage) : Usage :=
  { llmCalls := usage.llmCalls + other.llmCalls
    toolCalls := usage.toolCalls + other.toolCalls
    inputTokens := usage.inputTokens + other.inputTokens
    outputTokens := usage.outputTokens + other.outputTokens }

/-- What `_coverage` reports about the candidate phase. -/
structure Coverage where
  complete : Bool := false
  candidateChunksReviewed : Nat := 0
  candidateChunksTotal : Nat := 0
  reviewableFilesFullyReviewed : Nat := 0
  reviewableFilesTotal : Nat := 0
  uncoveredFiles : List String := []
  uncoveredFilesTruncated : Bool := false
  deriving DecidableEq, Repr

structure CandidateStats where
  observed : Nat := 0
  distinct : Nat := 0
  selected : Nat := 0
  dropped : Nat := 0
  reused : Nat := 0
  saved : Nat := 0
  deriving DecidableEq, Repr

/-- The `review_budget` entry of the review metadata. -/
structure BudgetMetadata where
  coverage : Coverage
  complete : Bool
  verificationComplete : Bool
  verificationCandidatesTotal : Nat
  verificationCandidatesProcessed : Nat
  stopReasons : List String
  usage : Usage
  deriving DecidableEq, Repr

/-- The `finding_lineage` entry of the review metadata. -/
structure FindingTracking where
  baselinePatchset : Option Int
  complete : Bool
  new : Nat
  persisting : Nat
  reopened : Nat
  resolved : Nat
  resolvedSemanticIds : List String
  deriving DecidableEq, Repr

structure InvocationTotals where
  llmCalls : Nat := 0
  toolCalls : Nat := 0
  inputTokens : Nat := 0
  outputTokens : Nat := 0
  failedCalls : Nat := 0
  unconfirmedCalls : Nat := 0
  llmUsageUnknown : Nat := 0
  deriving DecidableEq, Repr

/-- `review/project_policy.py`: the immutable per-job policy. -/
structure ProjectReviewPolicy where
  reviewLanguage : String := "INHERIT"
  outputLanguage : String
  autoCodeReview : Bool := false
  generation : Nat := 0
  boundAt : Time
  source : String := "default"
  deriving DecidableEq, Repr

/-- The keys of `review_metadata` some modelled function reads or writes. -/
structure ReviewMetadata where
  engine : Option String := none
  outputLanguage : Option String := none
  lineageComplete : Option Bool := none
  skippedReason : Option String := none
  skippedNoReviewableText : Option Bool := none
  diffChunks : Option Nat := none
  initialDiffChunks : Option Nat := none
  verificationBatches : Option Nat := none
  candidateCount : Option Nat := none
  verifiedModelCount : Option Nat := none
  validatedFindingCount : Option Nat := none
  publishedCandidateCount : Option Nat := none
  changeSummary : Option String := none
  reviewSummary : Option String := none
  reviewBudget : Option BudgetMetadata := none
  actualUsage : Option InvocationTotals := none
  candidateSelection : Option CandidateStats := none
  verifierReused : Option Nat := none
  verifierSaved : Option Nat := none
  legacyUsage : Option Usage := none
  findingLineage : Option FindingTracking := none
  projectReviewPolicy : Option ProjectReviewPolicy := none
  deriving DecidableEq, Repr

structure ReviewResult where
  summary : String
  findings : List Finding := []
  model : Option String := none
  inputTokens : Option Nat := none
  outputTokens : Option Nat := none
  reviewMetadata : ReviewMetadata := {}
  deriving DecidableEq, Repr

structure ChangedLine where
  path : String
  side : DiffSide := .revision
  line : Nat
  text : String
  deriving DecidableEq, Repr

structure ReviewContext where
  project : String
  changeNumber : Int
  patchsetNumber : Int
  revisionSha : String
  baseRevisionSha : Option String := none
  subject : Option String := none
  branch : Option String := none
  commitMessage : Option String := none
  /-- The diff as its code points. -/
  diff : List Char
  changedFiles : List String := []
  changedLines : List ChangedLine := []
  policyText : String
  repositoryRoot : String
  previousFindings : List Finding := []
  historicalFindings : List Finding := []
  previousPatchsetNumber : Option Int := none
  skipReason : Option String := none
  deriving DecidableEq, Repr

/-- What the worker knows about earlier reviews of the same change
(`review/lineage.py`). -/
structure FindingHistory where
  baselinePatchset : Option Int
  previousFindings : List Finding
  seenSemanticIds : List String
  historicalFindings : List Finding := []
  deriving DecidableEq, Repr

end PeReview
