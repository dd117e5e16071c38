import PeReview.Jobs.Progress
import PeReview.Jobs.ProjectPolicy
import PeReview.Jobs.Store.Attempts
import PeReview.Jobs.Store.Publications
import PeReview.Jobs.Store.Queue
import PeReview.Jobs.Store.Results
import PeReview.Jobs.Votes

/-!
# The transactions of a worker

Every call a worker makes on the job store, the vote store or the progress
backend, apart from `claim_next`.  Each is one transaction on the row of one job.
-/

namespace PeReview

open PeReview.Data

inductive StoreCall
  | get (id : JobId)
  | heartbeat (id : JobId)
  | refreshPublishGuard (id : JobId)
  | transition (id : JobId) (target : JobState) (releaseLease : Bool)
  | scheduleRetry (id : JobId) (resumeState : JobState) (retryAt : Time)
      (error : Reason)
  | markFailedPermanent (id : JobId) (error : Reason)
  | markSuperseded (id : JobId) (supersededByJobId : Option JobId)
  | startAttempt (id : JobId) (stage : AttemptStage)
  | countConsumedRetryAttempts (id : JobId) (stage : AttemptStage)
  | providerRetryStatus (id : JobId) (stage : AttemptStage)
  | finishAttempt (attempt : AttemptId) (success : Bool)
      (retryable : Option Bool) (error : Option Reason)
  | appendAttemptToolEvent (attempt : AttemptId) (event : String)
  | loadCandidateChunkCheckpoints (id : JobId) (checkpointVersion : String)
  | saveCandidateChunkCheckpoint (id : JobId)
      (checkpointVersion chunkKey : String) (checkpoint : CandidateChunkCheckpoint)
  | saveReviewResultAndMarkReady (id : JobId) (review : ReviewResult)
  | loadReviewResult (id : JobId)
  | loadFindingHistory (id : JobId)
  | beginPublication (id : JobId) (requestPayload : ReviewInput)
      (findingFingerprints : List String)
  | completePublication (publication : JobId)
      (gerritResponse : Option GerritResponse)
  | completePublicationAndMarkDone (publication id : JobId)
      (gerritResponse : Option GerritResponse) (deferDone : Bool)
  | markPublicationAmbiguous (publication : JobId) (error : String)
  | markPublicationFailed (publication : JobId) (error : String)
  | publicationForJob (id : JobId)
  | isLatestKnownPatchset (id : JobId)
  | voteOf (id : JobId)
  | ensureVote (id : JobId) (decision : VoteDecision)
      (payload : Option VoteInput)
  | dispatchVote (id : JobId) (accountId : Int)
  | retryVote (id : JobId) (error : String)
  | finishVote (id : JobId) (status : VoteStatus)
      (response : Option GerritResponse) (error : Option String)
      (accountId : Option Int)
  | loadProgress (id : JobId) (inputKey : String)
  | saveProgress (id : JobId) (progress : ReviewProgress)
  | recordInvocation (id : JobId) (attempt : Option AttemptId)
      (invocation : Invocation)
  | invocationTotals (id : JobId)
  | legacyUsage (id : JobId)
  | bindProjectReviewPolicy (id : JobId) (defaultLanguage : String)
  deriving DecidableEq, Repr

namespace StoreCall

def Result : StoreCall → Type
  | .get _ => Option JobRecord
  | .heartbeat _ => Bool
  | .refreshPublishGuard _ => PublishGuardStatus
  | .transition .. | .scheduleRetry .. | .markFailedPermanent ..
  | .markSuperseded .. | .saveReviewResultAndMarkReady ..
  | .completePublicationAndMarkDone .. => JobRecord
  | .startAttempt .. => AttemptId
  | .countConsumedRetryAttempts .. => Nat
  | .providerRetryStatus .. => ProviderRetryStatus
  | .finishAttempt .. | .appendAttemptToolEvent ..
  | .saveCandidateChunkCheckpoint .. | .completePublication ..
  | .markPublicationAmbiguous .. | .markPublicationFailed .. | .finishVote ..
  | .saveProgress .. | .recordInvocation .. => Unit
  | .loadCandidateChunkCheckpoints .. => Dict String CandidateChunkCheckpoint
  | .loadReviewResult _ => Option ReviewResult
  | .loadFindingHistory _ => FindingHistory
  | .beginPublication .. => Publication
  | .publicationForJob _ => Option Publication
  | .isLatestKnownPatchset _ => Bool
  | .voteOf _ => Option ReviewVote
  | .ensureVote .. | .dispatchVote .. | .retryVote .. => ReviewVote
  | .loadProgress .. => Option ReviewProgress
  | .invocationTotals _ => InvocationTotals
  | .legacyUsage _ => Bool × Usage
  | .bindProjectReviewPolicy .. => ProjectReviewPolicy

def job : StoreCall → JobId
  | .get id | .heartbeat id | .refreshPublishGuard id | .transition id _ _
  | .scheduleRetry id _ _ _ | .markFailedPermanent id _ | .markSuperseded id _
  | .startAttempt id _ | .countConsumedRetryAttempts id _
  | .providerRetryStatus id _ | .loadCandidateChunkCheckpoints id _
  | .saveCandidateChunkCheckpoint id _ _ _ | .saveReviewResultAndMarkReady id _
  | .loadReviewResult id | .loadFindingHistory id | .beginPublication id _ _
  | .completePublication id _ | .completePublicationAndMarkDone _ id _ _
  | .markPublicationAmbiguous id _ | .markPublicationFailed id _
  | .publicationForJob id | .isLatestKnownPatchset id | .voteOf id
  | .ensureVote id _ _ | .dispatchVote id _ | .retryVote id _
  | .finishVote id _ _ _ _ | .loadProgress id _ | .saveProgress id _
  | .recordInvocation id _ _ | .invocationTotals id | .legacyUsage id
  | .bindProjectReviewPolicy id _ => id
  | .finishAttempt attempt _ _ _ | .appendAttemptToolEvent attempt _ =>
      attempt.job

def run (hashes : Hashes) (now lease : Time) (worker : WorkerId) :
    (call : StoreCall) → Store → Except PyError (Store × call.Result)
  | .get id, store => .ok (store, store.get id)
  | .heartbeat id, store => .ok (store.heartbeat now lease id worker)
  | .refreshPublishGuard id, store =>
      .ok (store.refreshPublishGuard now lease id worker)
  | .transition id target releaseLease, store =>
      store.transition now id target worker releaseLease
  | .scheduleRetry id resumeState retryAt error, store =>
      store.scheduleRetry now id resumeState retryAt error worker
  | .markFailedPermanent id error, store =>
      store.markFailedPermanent now id error worker
  | .markSuperseded id supersededByJobId, store =>
      store.markSuperseded now id worker supersededByJobId
  | .startAttempt id stage, store => store.startAttempt now id stage worker
  | .countConsumedRetryAttempts id stage, store =>
      .ok (store, store.countConsumedRetryAttempts id stage)
  | .providerRetryStatus id stage, store =>
      .ok (store, store.providerRetryStatus id stage)
  | .finishAttempt attempt success retryable error, store =>
      store.finishAttempt now attempt success retryable error
  | .appendAttemptToolEvent attempt event, store =>
      store.appendAttemptToolEvent attempt event
  | .loadCandidateChunkCheckpoints id checkpointVersion, store =>
      .ok (store, store.loadCandidateChunkCheckpoints id checkpointVersion)
  | .saveCandidateChunkCheckpoint id checkpointVersion chunkKey checkpoint, store =>
      store.saveCandidateChunkCheckpoint now id worker checkpointVersion chunkKey
        checkpoint
  | .saveReviewResultAndMarkReady id review, store =>
      store.saveReviewResultAndMarkReady hashes.toDigest now id review worker
  | .loadReviewResult id, store => .ok (store, store.loadReviewResult id)
  | .loadFindingHistory id, store =>
      (store.loadFindingHistory id).map fun history => (store, history)
  | .beginPublication id requestPayload findingFingerprints, store =>
      store.beginPublication hashes now id worker requestPayload
        findingFingerprints
  | .completePublication publication gerritResponse, store =>
      store.completePublication now publication gerritResponse
  | .completePublicationAndMarkDone publication id gerritResponse deferDone, store =>
      store.completePublicationAndMarkDone now publication id worker
        gerritResponse deferDone
  | .markPublicationAmbiguous publication error, store =>
      store.markPublicationAmbiguous publication error
  | .markPublicationFailed publication error, store =>
      store.markPublicationFailed publication error
  | .publicationForJob id, store => .ok (store, store.publicationForJob id)
  | .isLatestKnownPatchset id, store =>
      .ok (store, store.isLatestKnownPatchset id)
  | .voteOf id, store => .ok (store, store.voteOf id)
  | .ensureVote id decision payload, store =>
      store.ensureVote now id worker decision payload
  | .dispatchVote id accountId, store => store.dispatchVote now id worker accountId
  | .retryVote id error, store => store.retryVote now id worker error
  | .finishVote id status response error accountId, store =>
      store.finishVote now id worker status response error accountId
  | .loadProgress id inputKey, store => .ok (store, store.loadProgress id inputKey)
  | .saveProgress id progress, store => store.saveProgress now id worker progress
  | .recordInvocation id attempt invocation, store =>
      store.recordInvocation now id worker attempt invocation
  | .invocationTotals id, store => .ok (store, store.invocationTotals id)
  | .legacyUsage id, store => .ok (store, store.legacyUsage id)
  | .bindProjectReviewPolicy id defaultLanguage, store =>
      store.bindProjectReviewPolicy now id worker defaultLanguage

end StoreCall

end PeReview
