import PeReview.Data.Dict
import PeReview.Domain

/-!
# Durable review progress

The records of `review/progress.py` that a review saves and resumes from.
-/

namespace PeReview

open PeReview.Data

/-- `PROGRESS_VERSION`. -/
def progressVersion : String := "review-v2"

inductive Phase
  | candidate
  | verification
  deriving DecidableEq, Repr

/-- The `Phase` literals. -/
def Phase.value : Phase → String
  | .candidate => "candidate"
  | .verification => "verification"

inductive ProgressPhase
  | candidate
  | verification
  | complete
  deriving DecidableEq, Repr

/-- The order in which the durable backend lets phases advance. -/
def ProgressPhase.order : ProgressPhase → Nat
  | .candidate => 0
  | .verification => 1
  | .complete => 2

inductive CheckpointStatus
  | done
  | split
  | stopped
  deriving DecidableEq, Repr

/-- What both model passes return: a summary and findings. -/
structure ParsedReview where
  summary : String := ""
  findings : List Finding := []
  deriving DecidableEq, Repr

structure WorkCheckpoint where
  phase : Phase
  key : String
  parentKey : Option String := none
  status : CheckpointStatus
  paths : List String := []
  /-- `{}` is `none`. -/
  result : Option ParsedReview := none
  usage : Usage := {}
  limitations : List String := []
  deriving DecidableEq, Repr

structure ReviewProgress where
  inputKey : String
  phase : ProgressPhase := .candidate
  checkpoints : Dict String WorkCheckpoint := []
  frozenCandidates : List Finding := []
  changeSummary : String := ""
  coverage : Coverage := {}
  candidateUsage : Usage := {}
  candidateLimitations : List String := []
  candidateStats : CandidateStats := {}
  legacyUsage : Usage := {}
  legacyPresent : Bool := false
  result : Option ReviewResult := none
  deriving DecidableEq, Repr

inductive InvocationKind
  | llm
  | tool
  deriving DecidableEq, Repr

inductive InvocationStatus
  | started
  | completed
  | failed
  deriving DecidableEq, Repr

structure Invocation where
  id : String
  inputKey : String
  phase : Phase
  workKey : String
  kind : InvocationKind
  status : InvocationStatus := .started
  inputTokens : Option Nat := none
  outputTokens : Option Nat := none
  error : Option String := none
  deriving DecidableEq, Repr

end PeReview
