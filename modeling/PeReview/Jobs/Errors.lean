import PeReview.Jobs.Calls

/-!
# What the job store raises

No transaction raises a transient or a permanent error of the service, so that
none is mistaken for the outcome of a request to Gerrit.
-/

namespace PeReview

open PeReview.Data

/-- Neither `TransientError` nor `PermanentError`. -/
def PyError.isPlain (error : PyError) : Bool :=
  !error.isTransient && !error.isPermanent

def RaisesPlain {Value : Type} (action : Except PyError Value) : Prop :=
  ∀ error, action = .error error → error.isPlain

namespace RaisesPlain

variable {Value Final : Type}

theorem ok (value : Value) : RaisesPlain (.ok value) := by
  intro error raised
  cases raised

theorem error {raised : PyError} (plain : raised.isPlain) :
    RaisesPlain (.error raised : Except PyError Value) := by
  intro error same
  cases same
  exact plain

theorem bind {action : Except PyError Value}
    {rest : Value → Except PyError Final} (first : RaisesPlain action)
    (second : ∀ value, RaisesPlain (rest value)) :
    RaisesPlain (action >>= rest) := by
  cases action with
  | error raised => exact error (first raised rfl)
  | ok value => exact second value

theorem map {action : Except PyError Value} {function : Value → Final}
    (first : RaisesPlain action) :
    RaisesPlain (action.map function) := by
  cases action with
  | error raised => exact error (first raised rfl)
  | ok value => exact ok (function value)

theorem require {condition : Bool} {raised : PyError}
    (plain : raised.isPlain) :
    RaisesPlain (Except.require condition raised) := by
  cases condition with
  | false => exact error plain
  | true => exact ok ()

theorem onJob {store : Store} {id : JobId}
    {action : Job → Except PyError (Job × Value)}
    (plain : ∀ job, RaisesPlain (action job)) :
    RaisesPlain (store.onJob id action) := by
  unfold Store.onJob
  cases store.jobs[id]? with
  | none => exact error rfl
  | some job =>
      simp only
      cases ran : action job with
      | error raised => exact error (plain job raised ran)
      | ok outcome => exact ok _

theorem requireLiveLease (id : JobId) (worker : WorkerId) (now : Time)
    (job : Job) :
    RaisesPlain (job.requireLiveLease id worker now) := by
  unfold Job.requireLiveLease
  split
  · exact error rfl
  · split
    · exact error rfl
    · split
      · exact error rfl
      · exact ok ()

theorem requireTransition (current target : JobState) :
    RaisesPlain (requireTransition current target) := by
  unfold PeReview.requireTransition canTransition
  split
  · exact ok ()
  · split
    · exact error rfl
    · exact require rfl

theorem voteGuard (id : JobId) (worker : WorkerId) (now : Time) (job : Job) :
    RaisesPlain (job.voteGuard id worker now) :=
  (requireLiveLease id worker now job).bind fun _ => require rfl

theorem admits (old progress : ReviewProgress) :
    RaisesPlain (old.admits progress) :=
  (require rfl).bind fun _ => (require rfl).bind fun _ => require rfl

theorem updatePublication (store : Store) (id : JobId)
    (change : Publication → Publication) :
    RaisesPlain (store.updatePublication id change) := by
  unfold Store.updatePublication
  cases store.jobs[id]? with
  | none => exact error rfl
  | some job =>
      simp only
      cases job.publication with
      | none => exact error rfl
      | some row => exact ok _

end RaisesPlain

section Transactions

variable (store : Store) (hashes : Hashes) (now lease : Time) (worker : WorkerId)

theorem finishAttempt_plain (attempt : AttemptId) (success : Bool)
    (retryable : Option Bool) (error : Option Reason) :
    RaisesPlain (store.finishAttempt now attempt success retryable error) := by
  unfold Store.finishAttempt
  cases store.attempt? attempt with
  | none => exact .error rfl
  | some row =>
      simp only
      split
      · exact .error rfl
      · exact .ok _

theorem appendAttemptToolEvent_plain (attempt : AttemptId) (event : String) :
    RaisesPlain (store.appendAttemptToolEvent attempt event) := by
  unfold Store.appendAttemptToolEvent
  cases store.attempt? attempt with
  | none => exact .error rfl
  | some row =>
      simp only
      split <;> exact .ok _

theorem startAttempt_plain (id : JobId) (stage : AttemptStage) :
    RaisesPlain (store.startAttempt now id stage worker) := by
  unfold Store.startAttempt
  cases store.jobs[id]? with
  | none => exact .error rfl
  | some job =>
      simp only
      split
      · exact .ok _
      · exact .error rfl

theorem saveReviewResult_plain (digest : Digest) (id : JobId)
    (review : ReviewResult) :
    RaisesPlain
      (store.saveReviewResultAndMarkReady digest now id review worker) := by
  refine .onJob fun job => (RaisesPlain.requireLiveLease id worker now job).bind ?_
  intro _
  split
  · exact (RaisesPlain.require rfl).bind fun _ => .ok _
  · exact (RaisesPlain.requireTransition _ _).bind fun _ => .ok _

theorem beginPublication_plain (id : JobId) (payload : ReviewInput)
    (fingerprints : List String) :
    RaisesPlain
      (store.beginPublication hashes now id worker payload fingerprints) := by
  refine .onJob fun job => (RaisesPlain.requireLiveLease id worker now job).bind ?_
  intro _
  refine (RaisesPlain.require rfl).bind fun _ => ?_
  simp only
  split
  · exact .ok _
  · exact (RaisesPlain.require rfl).bind fun _ => .ok _

theorem completePublicationAndMarkDone_plain (publication id : JobId)
    (response : Option GerritResponse) (deferDone : Bool) :
    RaisesPlain
      (store.completePublicationAndMarkDone now publication id worker response
        deferDone) := by
  refine .onJob fun job => (RaisesPlain.require rfl).bind fun _ => ?_
  split
  · exact .error rfl
  · split
    · exact .ok _
    · refine (RaisesPlain.require rfl).bind fun _ => ?_
      refine (RaisesPlain.require rfl).bind fun _ => ?_
      split
      · refine (RaisesPlain.requireLiveLease id worker now job).bind fun _ => ?_
        exact (RaisesPlain.require rfl).bind fun _ => .ok _
      · exact .ok _

theorem finishVote_plain (id : JobId) (status : VoteStatus)
    (response : Option GerritResponse) (error : Option String)
    (accountId : Option Int) :
    RaisesPlain
      (store.finishVote now id worker status response error accountId) := by
  refine (RaisesPlain.require rfl).bind fun _ => .onJob fun job => ?_
  refine (RaisesPlain.voteGuard id worker now job).bind fun _ => ?_
  refine (RaisesPlain.require rfl).bind fun _ => ?_
  split
  · exact .error rfl
  · refine RaisesPlain.bind ?_ fun _ => .ok _
    unfold Store.finishedVote
    split
    · exact .ok _
    · exact (RaisesPlain.require rfl).bind fun _ => .ok _

theorem recordInvocation_plain (id : JobId) (attempt : Option AttemptId)
    (invocation : Invocation) :
    RaisesPlain (store.recordInvocation now id worker attempt invocation) := by
  refine .onJob fun job => (RaisesPlain.requireLiveLease id worker now job).bind ?_
  intro _
  split
  · exact .error rfl
  · refine (RaisesPlain.require rfl).bind fun _ => ?_
    refine (RaisesPlain.require rfl).bind fun _ => ?_
    split
    · exact (RaisesPlain.require rfl).bind fun _ => .ok _
    · refine (RaisesPlain.require rfl).bind fun _ => ?_
      split
      · exact (RaisesPlain.require rfl).bind fun _ => .ok _
      · exact .ok _

theorem voteTransactions_plain (id : JobId) :
    (∀ decision payload,
        RaisesPlain (store.ensureVote now id worker decision payload)) ∧
      (∀ accountId, RaisesPlain (store.dispatchVote now id worker accountId)) ∧
      ∀ error, RaisesPlain (store.retryVote now id worker error) := by
  refine ⟨?_, ?_, ?_⟩
  · intro decision payload
    refine .onJob fun job => (RaisesPlain.voteGuard id worker now job).bind ?_
    intro _
    split <;> exact .ok _
  · intro accountId
    refine .onJob fun job => (RaisesPlain.voteGuard id worker now job).bind ?_
    intro _
    split
    · exact .error rfl
    · refine (RaisesPlain.require rfl).bind fun _ => ?_
      exact (RaisesPlain.require rfl).bind fun _ => .ok _
  · intro error
    refine .onJob fun job => (RaisesPlain.voteGuard id worker now job).bind ?_
    intro _
    split
    · exact .error rfl
    · exact .ok _

end Transactions

/-- Every transaction of a worker raises plain errors only. -/
theorem StoreCall.run_plain (hashes : Hashes) (now lease : Time)
    (worker : WorkerId) (call : StoreCall) (store : Store) :
    RaisesPlain (call.run hashes now lease worker store) := by
  have guarded : ∀ {Value : Type} (id : JobId)
      (rest : Job → Except PyError (Job × Value)),
      (∀ job, RaisesPlain (rest job)) →
        RaisesPlain (store.onJob id fun job => do
          job.requireLiveLease id worker now
          rest job) := by
    intro Value id rest plain
    exact .onJob fun job =>
      (RaisesPlain.requireLiveLease id worker now job).bind fun _ => plain job
  cases call with
  | transition id target releaseLease =>
      exact guarded id _ fun job =>
        (RaisesPlain.requireTransition _ _).bind fun _ => .ok _
  | scheduleRetry id resumeState retryAt error =>
      exact (RaisesPlain.require rfl).bind fun _ =>
        guarded id _ fun job =>
          (RaisesPlain.requireTransition _ _).bind fun _ => .ok _
  | markFailedPermanent id error =>
      exact guarded id _ fun job =>
        (RaisesPlain.requireTransition _ _).bind fun _ => .ok _
  | markSuperseded id supersededByJobId =>
      refine .onJob fun job => ?_
      split
      · exact .ok _
      · refine (RaisesPlain.requireLiveLease id worker now job).bind fun _ => ?_
        exact (RaisesPlain.requireTransition _ _).bind fun _ => .ok _
  | startAttempt id stage => exact startAttempt_plain store now worker id stage
  | finishAttempt attempt success retryable error =>
      exact finishAttempt_plain store now attempt success retryable error
  | appendAttemptToolEvent attempt event =>
      exact appendAttemptToolEvent_plain store attempt event
  | saveCandidateChunkCheckpoint id version key checkpoint =>
      exact guarded id _ fun job => .ok _
  | saveReviewResultAndMarkReady id review =>
      exact saveReviewResult_plain store now worker hashes.toDigest id review
  | loadFindingHistory id =>
      refine RaisesPlain.map ?_
      unfold Store.loadFindingHistory
      split
      · exact .error rfl
      · exact .ok _
  | beginPublication id payload fingerprints =>
      exact beginPublication_plain store hashes now worker id payload fingerprints
  | completePublication publication response =>
      exact .updatePublication store publication _
  | completePublicationAndMarkDone publication id response deferDone =>
      exact completePublicationAndMarkDone_plain store now worker publication id
        response deferDone
  | markPublicationAmbiguous publication error =>
      exact .updatePublication store publication _
  | markPublicationFailed publication error =>
      exact .updatePublication store publication _
  | ensureVote id decision payload =>
      exact (voteTransactions_plain store now worker id).1 decision payload
  | dispatchVote id accountId =>
      exact (voteTransactions_plain store now worker id).2.1 accountId
  | retryVote id error =>
      exact (voteTransactions_plain store now worker id).2.2 error
  | finishVote id status response error accountId =>
      exact finishVote_plain store now worker id status response error accountId
  | saveProgress id progress =>
      refine guarded id _ fun job => ?_
      simp only
      split
      · exact .ok _
      · exact (RaisesPlain.admits _ _).bind fun _ => .ok _
  | recordInvocation id attempt invocation =>
      exact recordInvocation_plain store now worker id attempt invocation
  | bindProjectReviewPolicy id defaultLanguage =>
      refine guarded id _ fun job => ?_
      split <;> exact .ok _
  | get | heartbeat | refreshPublishGuard | countConsumedRetryAttempts
  | providerRetryStatus | loadCandidateChunkCheckpoints | loadReviewResult
  | publicationForJob | isLatestKnownPatchset | voteOf | loadProgress
  | invocationTotals | legacyUsage => exact .ok _

end PeReview
