import PeReview.Service.Retry

/-!
# The Gerrit client

`ensure_current_revision`, `publish_review_input` and `has_published_review` of
`GerritRestClient`.
-/

namespace PeReview

open PeReview.Process

/-- `SupersededRevisionError`. -/
def PyError.supersededRevision (project : String) (changeNumber : Int)
    (expected actual : String) : PyError :=
  { cls := .supersededRevisionError
    message :=
      s!"Gerrit change {project}~{changeNumber} moved from revision {expected} " ++
        s!"to {actual}" }

/-- `ChangeNotOpenError`. -/
def PyError.changeNotOpen (project : String) (changeNumber : Int)
    (status : String) : PyError :=
  { cls := .changeNotOpenError
    message :=
      s!"Gerrit change {project}~{changeNumber} is not open (status={status})"
    status := some status }

/-- `GerritRestClient.ensure_current_revision`. -/
def ensureCurrentRevision (job : JobRecord) (allowMerged : Bool := false) :
    Task GerritChange := do
  let change : GerritChange ←
    ExceptT.mk (Program.perform (Call.getChange job.project job.changeNumber))
  if change.status ≠ "NEW" ∧ ¬(allowMerged ∧ change.status = "MERGED") then
    throw (.changeNotOpen job.project job.changeNumber change.status)
  if change.currentRevision ≠ job.revisionSha then
    throw
      (.supersededRevision job.project job.changeNumber job.revisionSha
        change.currentRevision)
  return change

/-- The POST of a review: it leaves the worker, and its outcome comes back. -/
def sendReview (job : JobRecord) (payload : ReviewInput) : Task GerritResponse := do
  let number : Nat ← Task.plain (.postReview job.id payload)
  let outcome : PostOutcome ← Task.plain (.postOutcome job.id number)
  ExceptT.mk (.done outcome.toExcept)

def sendVote (job : JobRecord) (payload : VoteInput) : Task GerritResponse :=
  ExceptT.mk (Program.perform (Call.postVote job.id payload))

/-- `GerritRestClient.publish_review_input`. -/
def publishReviewInput (job : JobRecord) (send : Task GerritResponse)
    (prePostGuard : Task Bool) (allowMerged : Bool := false) :
    Task GerritResponse := do
  let _ ← ensureCurrentRevision job allowMerged
  let current ← prePostGuard
  if !current then
    throw
      (.supersededRevision job.project job.changeNumber job.revisionSha
        "newer-patchset-known-by-worker")
  send

/-- `GerritRestClient.has_published_review`. -/
def hasPublishedReview (job : JobRecord) (summary tag : String) : Task Bool := do
  let _ : Unit ← Task.plain (.listMessages job.id summary tag)
  ExceptT.mk (Program.perform (Call.messages job.id))

end PeReview
