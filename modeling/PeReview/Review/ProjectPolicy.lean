import PeReview.Domain

/-!
# The Code-Review vote decision

`decide_code_review_vote` of `review/project_policy.py`.
-/

namespace PeReview

/-- `VoteDecision`. -/
structure VoteDecision where
  value : Option Int
  reason : String
  findingCount : Option Nat := none
  deriving DecidableEq, Repr

/-- `decide_code_review_vote`. -/
def decideCodeReviewVote (policy : Option ProjectReviewPolicy)
    (review : ReviewResult) : VoteDecision :=
  match policy with
  | none => { value := none, reason := "legacy_job_without_project_policy" }
  | some policy =>
      if !policy.autoCodeReview then
        { value := none, reason := "project_voting_disabled" }
      else if truthy review.reviewMetadata.skippedReason ||
          review.reviewMetadata.skippedNoReviewableText = some true then
        { value := none, reason := "review_skipped" }
      else
        let count :=
          review.reviewMetadata.validatedFindingCount.getD review.findings.length
        let count := max count review.findings.length
        if count = 0 then
          { value := some 1, reason := "zero_findings", findingCount := some count }
        else
          { value := some 0, reason := "findings_present",
            findingCount := some count }

end PeReview
