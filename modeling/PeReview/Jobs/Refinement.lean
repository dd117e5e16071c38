import PeReview.Jobs.Calls
import PeReview.Jobs.Environment

/-!
# The store refines the table

`Job.row` reads the protocol state of a job row.  Every committed transaction of
a worker leaves the store as it was or writes the row of its job by at most the
action `StoreCall.action` names, and it touches the guarded columns only under a
live lease.
-/

namespace PeReview

open PeReview.Data

/-- The protocol state of a job row. -/
def Job.row (job : Job) : Row :=
  { project := job.project
    changeNumber := job.changeNumber
    patchsetNumber := job.patchsetNumber
    state := job.state
    retryState := job.retryState
    leaseOwner := job.leaseOwner
    leaseExpiresAt := job.leaseExpiresAt
    hasResult := job.result.isSome
    publication :=
      job.publication.map fun row => (row.status, row.requestPayload) }

@[simp]
theorem Job.live_row (worker : WorkerId) (now : Time) (job : Job) :
    job.row.live worker now = job.live worker now :=
  rfl

/-- The columns only the holder of a live lease may write. -/
structure GuardedColumns where
  state : JobState
  retryState : Option JobState
  result : Option ReviewResultRow
  progress : Dict String ReviewProgressRow
  invocations : List ReviewInvocationRow
  chunkCheckpoints : Dict (String × String) ReviewChunkCheckpoint
  attempts : Nat
  hasPublication : Bool
  vote : Option ReviewVote
  deriving DecidableEq

def Job.guarded (job : Job) : GuardedColumns :=
  { state := job.state
    retryState := job.retryState
    result := job.result
    progress := job.progress
    invocations := job.invocations
    chunkCheckpoints := job.chunkCheckpoints
    attempts := job.attempts.length
    hasPublication := job.publication.isSome
    vote := job.vote }

/-- What a committed transaction of a worker may have written to its job. -/
structure Job.Wrote (worker : WorkerId) (now lease : Time)
    (action : Option RowAction) (job written : Job) : Prop where
  row : written.row = job.row ∨
    ∃ performed, action = some performed ∧
      performed.guard worker now job.row ∧
      written.row = performed.apply now lease job.row
  guarded : job.live worker now ∨ written.guarded = job.guarded ∨
    ∃ defer, action = some (.post defer)

namespace Job.Wrote

variable {worker : WorkerId} {now lease : Time} {action : Option RowAction}
  {job written : Job}

/-- A transaction that only writes columns outside the protocol. -/
theorem keeping (kept : written.row = job.row)
    (guarded : job.live worker now ∨ written.guarded = job.guarded) :
    Job.Wrote worker now lease action job written where
  row := .inl kept
  guarded := guarded.elim .inl fun same => .inr (.inl same)

theorem unchanged : Job.Wrote worker now lease action job job :=
  keeping rfl (.inr rfl)

/-- A transaction under a live lease. -/
theorem acting {performed : RowAction} (live : job.live worker now)
    (guard : performed.guard worker now job.row)
    (effect : written.row = performed.apply now lease job.row) :
    Job.Wrote worker now lease (some performed) job written where
  row := .inr ⟨performed, rfl, guard, effect⟩
  guarded := .inl live

end Job.Wrote

namespace StoreCall

def action : StoreCall → Option RowAction
  | .heartbeat _ => some .extend
  | .refreshPublishGuard _ => some .extend
  | .transition _ target releaseLease => some (.move target releaseLease)
  | .scheduleRetry _ resumeState _ _ => some (.park resumeState)
  | .markFailedPermanent _ _ => some (.close .failedPermanent)
  | .markSuperseded _ _ => some (.close .superseded)
  | .saveReviewResultAndMarkReady _ _ => some .save
  | .beginPublication _ requestPayload _ => some (.begin requestPayload)
  | .completePublication _ _ => some (.mark .posted)
  | .completePublicationAndMarkDone _ _ _ deferDone => some (.post deferDone)
  | .markPublicationAmbiguous _ _ => some (.mark .ambiguous)
  | .markPublicationFailed _ _ => some (.mark .failed)
  | .finishVote _ _ _ _ _ => some .finish
  | _ => none

end StoreCall

/-- A committed transaction left the store alone or wrote one job row. -/
def Store.Wrote (worker : WorkerId) (now lease : Time)
    (action : Option RowAction) (id : JobId) (store target : Store) : Prop :=
  target = store ∨
    ∃ job written, store.jobs[id]? = some job ∧
      target = store.setJob id written ∧
      job.Wrote worker now lease action written

section Transactions

variable {store target : Store} {hashes : Hashes} {now lease : Time}
  {id : JobId} {worker : WorkerId}

theorem Store.onJob_wrote {Value : Type} {action : Option RowAction}
    {transaction : Job → Except PyError (Job × Value)} {value : Value}
    (committed : store.onJob id transaction = .ok (target, value))
    (wrote : ∀ job written, transaction job = .ok (written, value) →
      job.Wrote worker now lease action written) :
    Store.Wrote worker now lease action id store target := by
  obtain ⟨job, written, found, ran, rfl⟩ := Store.onJob_eq_ok.mp committed
  exact .inr ⟨job, written, found, rfl, wrote job written ran⟩

theorem heartbeat_wrote {alive : Bool}
    (ran : store.heartbeat now lease id worker = (target, alive)) :
    Store.Wrote worker now lease (some .extend) id store target := by
  unfold Store.heartbeat at ran
  cases found : store.jobs[id]? with
  | none =>
      simp only [found, Prod.mk.injEq] at ran
      exact .inl ran.1.symm
  | some job =>
      simp only [found] at ran
      split at ran
      · rename_i allowed
        simp only [Bool.and_eq_true, Bool.not_eq_true'] at allowed
        cases ran
        exact .inr ⟨job, _, found, rfl, .acting allowed.1 allowed rfl⟩
      · cases ran
        exact .inl rfl

theorem refreshPublishGuard_wrote {status : PublishGuardStatus}
    (ran : store.refreshPublishGuard now lease id worker = (target, status)) :
    Store.Wrote worker now lease (some .extend) id store target := by
  unfold Store.refreshPublishGuard at ran
  cases found : store.jobs[id]? with
  | none =>
      simp only [found, Prod.mk.injEq] at ran
      exact .inl ran.1.symm
  | some job =>
      simp only [found] at ran
      split at ran
      · cases ran
        exact .inl rfl
      · rename_i allowed
        simp only [ne_eq, Bool.or_eq_true, decide_eq_true_eq,
          Bool.not_eq_true', not_or, Decidable.not_not] at allowed
        split at ran
        · cases ran
          exact .inl rfl
        · cases ran
          have live : job.live worker now := by simpa using allowed.2
          refine .inr ⟨job, _, found, rfl, .acting live ⟨live, ?_⟩ rfl⟩
          simp [Job.row, allowed.1, JobState.isTerminal]

theorem transition_wrote {goal : JobState} {releaseLease : Bool}
    {record : JobRecord}
    (ran : store.transition now id goal worker releaseLease =
      .ok (target, record)) :
    Store.Wrote worker now lease (some (.move goal releaseLease)) id store
      target := by
  refine Store.onJob_wrote ran ?_
  intro job written returned
  simp only [Except.bind_eq_ok, Job.requireLiveLease_eq_ok,
    requireTransition_eq_ok] at returned
  obtain ⟨_, live, _, moves, finished⟩ := returned
  cases finished
  refine .acting live ⟨live, moves⟩ ?_
  simp only [RowAction.apply]
  split <;> rfl

theorem scheduleRetry_wrote {resumeState : JobState} {retryAt : Time}
    {error : Reason} {record : JobRecord}
    (ran : store.scheduleRetry now id resumeState retryAt error worker =
      .ok (target, record)) :
    Store.Wrote worker now lease (some (.park resumeState)) id store target := by
  obtain ⟨_, resumable, committed⟩ := Except.bind_eq_ok.mp ran
  rw [Except.require_eq_ok] at resumable
  refine Store.onJob_wrote committed ?_
  intro job written returned
  simp only [Except.bind_eq_ok, Job.requireLiveLease_eq_ok,
    requireTransition_eq_ok] at returned
  obtain ⟨_, live, _, moves, finished⟩ := returned
  cases finished
  exact .acting live ⟨live, resumable, moves⟩ rfl

theorem markFailedPermanent_wrote {error : Reason} {record : JobRecord}
    (ran : store.markFailedPermanent now id error worker =
      .ok (target, record)) :
    Store.Wrote worker now lease (some (.close .failedPermanent)) id store
      target := by
  refine Store.onJob_wrote ran ?_
  intro job written returned
  simp only [Except.bind_eq_ok, Job.requireLiveLease_eq_ok,
    requireTransition_eq_ok] at returned
  obtain ⟨_, live, _, moves, finished⟩ := returned
  cases finished
  exact .acting live ⟨live, moves, rfl, by decide⟩ rfl

theorem markSuperseded_wrote {supersededBy : Option JobId} {record : JobRecord}
    (ran : store.markSuperseded now id worker supersededBy =
      .ok (target, record)) :
    Store.Wrote worker now lease (some (.close .superseded)) id store
      target := by
  refine Store.onJob_wrote ran ?_
  intro job written returned
  split at returned
  · cases returned
    exact .unchanged
  · simp only [Except.bind_eq_ok, Job.requireLiveLease_eq_ok,
      requireTransition_eq_ok] at returned
    obtain ⟨_, live, _, moves, finished⟩ := returned
    cases finished
    exact .acting live ⟨live, moves, rfl, by decide⟩ rfl

theorem startAttempt_wrote {stage : AttemptStage} {attempt : AttemptId}
    (ran : store.startAttempt now id stage worker = .ok (target, attempt)) :
    Store.Wrote worker now lease none id store target := by
  unfold Store.startAttempt at ran
  cases found : store.jobs[id]? with
  | none => simp [found] at ran
  | some job =>
      simp only [found] at ran
      split at ran
      · rename_i live
        cases ran
        exact .inr ⟨job, _, found, rfl, .keeping rfl (.inl live)⟩
      · cases ran

theorem setAttempt_wrote (attempt : AttemptId) (row : Attempt) :
    Store.Wrote worker now lease none attempt.job store
      (store.setAttempt attempt row) := by
  unfold Store.setAttempt
  cases found : store.jobs[attempt.job]? with
  | none => exact .inl rfl
  | some job =>
      refine .inr ⟨job, _, found, rfl, .keeping rfl (.inr ?_)⟩
      simp [Job.guarded]

theorem finishAttempt_wrote {attempt : AttemptId} {success : Bool}
    {retryable : Option Bool} {error : Option Reason}
    (ran : store.finishAttempt now attempt success retryable error =
      .ok (target, ())) :
    Store.Wrote worker now lease none attempt.job store target := by
  unfold Store.finishAttempt at ran
  cases found : store.attempt? attempt with
  | none => simp [found] at ran
  | some row =>
      simp only [found] at ran
      split at ran
      · cases ran
      · cases ran
        exact setAttempt_wrote attempt _

theorem appendAttemptToolEvent_wrote {attempt : AttemptId} {event : String}
    (ran : store.appendAttemptToolEvent attempt event = .ok (target, ())) :
    Store.Wrote worker now lease none attempt.job store target := by
  unfold Store.appendAttemptToolEvent at ran
  cases found : store.attempt? attempt with
  | none => simp [found] at ran
  | some row =>
      simp only [found] at ran
      split at ran
      · cases ran
        exact .inl rfl
      · cases ran
        exact setAttempt_wrote attempt _

theorem saveCandidateChunkCheckpoint_wrote {version key : String}
    {checkpoint : CandidateChunkCheckpoint}
    (ran : store.saveCandidateChunkCheckpoint now id worker version key
      checkpoint = .ok (target, ())) :
    Store.Wrote worker now lease none id store target := by
  refine Store.onJob_wrote ran ?_
  intro job written returned
  simp only [Except.bind_eq_ok, Job.requireLiveLease_eq_ok] at returned
  obtain ⟨_, live, finished⟩ := returned
  cases finished
  exact .keeping rfl (.inl live)

theorem saveReviewResultAndMarkReady_wrote {digest : Digest}
    {review : ReviewResult} {record : JobRecord}
    (ran : store.saveReviewResultAndMarkReady digest now id review worker =
      .ok (target, record)) :
    Store.Wrote worker now lease (some .save) id store target := by
  refine Store.onJob_wrote ran ?_
  intro job written returned
  obtain ⟨_, live, rest⟩ := Except.bind_eq_ok.mp returned
  rw [Job.requireLiveLease_eq_ok] at live
  split at rest
  · obtain ⟨_, _, finished⟩ := Except.bind_eq_ok.mp rest
    cases finished
    exact .unchanged
  · obtain ⟨_, moves, finished⟩ := Except.bind_eq_ok.mp rest
    rw [requireTransition_eq_ok] at moves
    cases finished
    refine .acting live ⟨live, moves⟩ ?_
    cases job.result <;> rfl

theorem beginPublication_wrote {payload : ReviewInput}
    {fingerprints : List String} {publication : Publication}
    (ran : store.beginPublication hashes now id worker payload fingerprints =
      .ok (target, publication)) :
    Store.Wrote worker now lease (some (.begin payload)) id store target := by
  refine Store.onJob_wrote ran ?_
  intro job written returned
  simp only [Except.bind_eq_ok, Job.requireLiveLease_eq_ok,
    Except.require_eq_ok, decide_eq_true_eq] at returned
  obtain ⟨_, live, _, publishing, rest⟩ := returned
  cases present : job.publication with
  | none =>
      simp only [present] at rest
      cases rest
      refine .acting live ⟨live, publishing, ?_⟩ rfl
      simp [Job.row, present]
  | some row =>
      simp only [present] at rest
      obtain ⟨_, _, finished⟩ := Except.bind_eq_ok.mp rest
      cases finished
      exact .unchanged

theorem updatePublication_wrote {change : Publication → Publication}
    {status : PublicationStatus}
    (changes : ∀ row, (change row).status = status ∧
      (change row).requestPayload = row.requestPayload)
    (ran : store.updatePublication id change = .ok (target, ())) :
    Store.Wrote worker now lease (some (.mark status)) id store target := by
  unfold Store.updatePublication at ran
  cases found : store.jobs[id]? with
  | none => simp [found] at ran
  | some job =>
      cases present : job.publication with
      | none => simp [found, present] at ran
      | some row =>
          simp only [found, present] at ran
          cases ran
          refine .inr ⟨job, _, found, rfl, ?_, ?_⟩
          · refine .inr ⟨.mark status, rfl, ?_, ?_⟩
            · simp [RowAction.guard, Job.row, present]
            · simp [RowAction.apply, RowAction.withStatus, Job.row, present,
                changes row]
          · exact .inr (.inl (by simp [Job.guarded, present]))

theorem completePublication_wrote {response : Option GerritResponse}
    (ran : store.completePublication now id response = .ok (target, ())) :
    Store.Wrote worker now lease (some (.mark .posted)) id store target := by
  refine updatePublication_wrote ?_ ran
  intro row
  exact ⟨rfl, rfl⟩

theorem markPublicationAmbiguous_wrote {error : String}
    (ran : store.markPublicationAmbiguous id error = .ok (target, ())) :
    Store.Wrote worker now lease (some (.mark .ambiguous)) id store target := by
  refine updatePublication_wrote ?_ ran
  intro row
  exact ⟨rfl, rfl⟩

theorem markPublicationFailed_wrote {error : String}
    (ran : store.markPublicationFailed id error = .ok (target, ())) :
    Store.Wrote worker now lease (some (.mark .failed)) id store target := by
  refine updatePublication_wrote ?_ ran
  intro row
  exact ⟨rfl, rfl⟩

theorem completePublicationAndMarkDone_wrote {publication : JobId}
    {response : Option GerritResponse} {deferDone : Bool} {record : JobRecord}
    (ran : store.completePublicationAndMarkDone now publication id worker
      response deferDone = .ok (target, record)) :
    Store.Wrote worker now lease (some (.post deferDone)) id store target := by
  refine Store.onJob_wrote ran ?_
  intro job written returned
  obtain ⟨_, _, rest⟩ := Except.bind_eq_ok.mp returned
  cases present : job.publication with
  | none => simp [present] at rest
  | some row =>
      simp only [present] at rest
      split at rest
      · cases rest
        exact .unchanged
      · simp only [Except.bind_eq_ok, Except.require_eq_ok, Bool.or_eq_true,
          decide_eq_true_eq] at rest
        obtain ⟨_, observed, _, owned, rest⟩ := rest
        have observable : job.row.publication.isSome := by
          simp [Job.row, present]
        have holder : job.state = .publishing →
            job.leaseOwner = none ∨ job.leaseOwner = some worker := by
          intro publishing
          rcases owned with (elsewhere | free) | own
          · exact absurd publishing elsewhere
          · exact .inl (Option.isNone_iff_eq_none.mp free)
          · exact .inr own
        cases deferDone with
        | true =>
            simp only [if_true, Except.bind_eq_ok, Job.requireLiveLease_eq_ok,
              Except.require_eq_ok, decide_eq_true_eq] at rest
            obtain ⟨_, live, _, publishing, finished⟩ := rest
            cases finished
            refine .acting live ⟨observable, .inl ⟨publishing,
              holder publishing, fun _ => live⟩⟩ ?_
            simp [RowAction.apply, RowAction.withStatus, Job.row, present,
              Store.postedPublication]
        | false =>
            simp only [Bool.false_eq_true, if_false] at rest
            cases rest
            refine ⟨.inr ⟨.post false, rfl, ⟨observable, ?_⟩, ?_⟩,
              .inr (.inr ⟨false, rfl⟩)⟩
            · rcases observed with publishing | superseded
              · exact .inl ⟨publishing, holder publishing, by simp⟩
              · exact .inr ⟨superseded, rfl⟩
            · simp [RowAction.apply, RowAction.withStatus, Job.row, Job.release,
                Row.release, present, Store.postedPublication]

theorem voteGuarded_wrote {Value : Type} {value : Value}
    {transaction : Job → Except PyError (Job × Value)}
    (ran : store.onJob id (fun job => do
      job.voteGuard id worker now
      transaction job) = .ok (target, value))
    (kept : ∀ job written, transaction job = .ok (written, value) →
      written.row = job.row) :
    Store.Wrote worker now lease none id store target := by
  refine Store.onJob_wrote ran ?_
  intro job written returned
  obtain ⟨_, guarded, rest⟩ := Except.bind_eq_ok.mp returned
  rw [Job.voteGuard_eq_ok] at guarded
  exact .keeping (kept job written rest) (.inl guarded.1)

theorem ensureVote_wrote {decision : VoteDecision} {payload : Option VoteInput}
    {vote : ReviewVote}
    (ran : store.ensureVote now id worker decision payload =
      .ok (target, vote)) :
    Store.Wrote worker now lease none id store target := by
  refine voteGuarded_wrote ran ?_
  intro job written returned
  split at returned <;> cases returned <;> rfl

theorem dispatchVote_wrote {accountId : Int} {vote : ReviewVote}
    (ran : store.dispatchVote now id worker accountId = .ok (target, vote)) :
    Store.Wrote worker now lease none id store target := by
  refine voteGuarded_wrote ran ?_
  intro job written returned
  split at returned
  · cases returned
  · simp only [Except.bind_eq_ok] at returned
    obtain ⟨_, _, _, _, finished⟩ := returned
    cases finished
    rfl

theorem retryVote_wrote {error : String} {vote : ReviewVote}
    (ran : store.retryVote now id worker error = .ok (target, vote)) :
    Store.Wrote worker now lease none id store target := by
  refine voteGuarded_wrote ran ?_
  intro job written returned
  split at returned <;> cases returned
  rfl

theorem finishVote_wrote {status : VoteStatus}
    {response : Option GerritResponse} {error : Option String}
    {accountId : Option Int}
    (ran : store.finishVote now id worker status response error accountId =
      .ok (target, ())) :
    Store.Wrote worker now lease (some .finish) id store target := by
  obtain ⟨_, _, committed⟩ := Except.bind_eq_ok.mp ran
  refine Store.onJob_wrote committed ?_
  intro job written returned
  simp only [Except.bind_eq_ok, Job.voteGuard_eq_ok,
    Except.require_eq_ok] at returned
  obtain ⟨_, ⟨live, publishing⟩, _, posted, rest⟩ := returned
  split at rest
  · cases rest
  · obtain ⟨row, _, finished⟩ := Except.bind_eq_ok.mp rest
    cases finished
    refine .acting live ⟨live, publishing, ?_⟩ rfl
    cases present : job.publication with
    | none => simp [present] at posted
    | some publication =>
        simpa [Job.row, present] using posted

theorem saveProgress_wrote {progress : ReviewProgress}
    (ran : store.saveProgress now id worker progress = .ok (target, ())) :
    Store.Wrote worker now lease none id store target := by
  refine Store.onJob_wrote ran ?_
  intro job written returned
  obtain ⟨_, live, rest⟩ := Except.bind_eq_ok.mp returned
  rw [Job.requireLiveLease_eq_ok] at live
  split at rest
  · cases rest
    exact .keeping rfl (.inl live)
  · obtain ⟨_, _, finished⟩ := Except.bind_eq_ok.mp rest
    cases finished
    exact .keeping rfl (.inl live)

theorem recordInvocation_wrote {attempt : Option AttemptId}
    {invocation : Invocation}
    (ran : store.recordInvocation now id worker attempt invocation =
      .ok (target, ())) :
    Store.Wrote worker now lease none id store target := by
  refine Store.onJob_wrote ran ?_
  intro job written returned
  obtain ⟨_, live, rest⟩ := Except.bind_eq_ok.mp returned
  rw [Job.requireLiveLease_eq_ok] at live
  refine .keeping ?_ (.inl live)
  cases attempt with
  | none => cases rest
  | some attempt =>
      simp only [Except.bind_eq_ok] at rest
      obtain ⟨_, _, _, _, rest⟩ := rest
      split at rest
      · obtain ⟨_, _, finished⟩ := Except.bind_eq_ok.mp rest
        cases finished
        rfl
      · obtain ⟨_, _, finished⟩ := Except.bind_eq_ok.mp rest
        split at finished
        · obtain ⟨_, _, finished⟩ := Except.bind_eq_ok.mp finished
          cases finished
          rfl
        · cases finished
          rfl

theorem bindProjectReviewPolicy_wrote {defaultLanguage : String}
    {policy : ProjectReviewPolicy}
    (ran : store.bindProjectReviewPolicy now id worker defaultLanguage =
      .ok (target, policy)) :
    Store.Wrote worker now lease none id store target := by
  refine Store.onJob_wrote ran ?_
  intro job written returned
  obtain ⟨_, live, rest⟩ := Except.bind_eq_ok.mp returned
  rw [Job.requireLiveLease_eq_ok] at live
  split at rest <;> cases rest <;> exact .keeping rfl (.inl live)

end Transactions

namespace StoreCall

/-- Every committed transaction of a worker refines its action on the table. -/
theorem run_wrote {hashes : Hashes} {now lease : Time} {worker : WorkerId}
    {call : StoreCall} {store target : Store} {value : call.Result}
    (ran : call.run hashes now lease worker store = .ok (target, value)) :
    Store.Wrote worker now lease call.action call.job store target := by
  cases call with
  | heartbeat id => exact heartbeat_wrote (Except.ok.inj ran)
  | refreshPublishGuard id => exact refreshPublishGuard_wrote (Except.ok.inj ran)
  | transition id goal releaseLease => exact transition_wrote ran
  | scheduleRetry id resumeState retryAt error => exact scheduleRetry_wrote ran
  | markFailedPermanent id error => exact markFailedPermanent_wrote ran
  | markSuperseded id supersededBy => exact markSuperseded_wrote ran
  | startAttempt id stage => exact startAttempt_wrote ran
  | finishAttempt attempt success retryable error =>
      exact finishAttempt_wrote ran
  | appendAttemptToolEvent attempt event =>
      exact appendAttemptToolEvent_wrote ran
  | saveCandidateChunkCheckpoint id version key checkpoint =>
      exact saveCandidateChunkCheckpoint_wrote ran
  | saveReviewResultAndMarkReady id review =>
      exact saveReviewResultAndMarkReady_wrote ran
  | beginPublication id payload fingerprints => exact beginPublication_wrote ran
  | completePublication publication response => exact completePublication_wrote ran
  | completePublicationAndMarkDone publication id response deferDone =>
      exact completePublicationAndMarkDone_wrote ran
  | markPublicationAmbiguous publication error => exact markPublicationAmbiguous_wrote ran
  | markPublicationFailed publication error => exact markPublicationFailed_wrote ran
  | ensureVote id decision payload => exact ensureVote_wrote ran
  | dispatchVote id accountId => exact dispatchVote_wrote ran
  | retryVote id error => exact retryVote_wrote ran
  | finishVote id status response error accountId => exact finishVote_wrote ran
  | saveProgress id progress => exact saveProgress_wrote ran
  | recordInvocation id attempt invocation => exact recordInvocation_wrote ran
  | bindProjectReviewPolicy id defaultLanguage =>
      exact bindProjectReviewPolicy_wrote ran
  | loadFindingHistory id =>
      simp only [run] at ran
      cases loaded : store.loadFindingHistory id with
      | error raised => simp [loaded, Except.map] at ran
      | ok history =>
          simp only [loaded, Except.map] at ran
          cases ran
          exact .inl rfl
  | get | countConsumedRetryAttempts | providerRetryStatus
  | loadCandidateChunkCheckpoints | loadReviewResult | publicationForJob
  | isLatestKnownPatchset | voteOf | loadProgress | invocationTotals
  | legacyUsage =>
      cases ran
      exact .inl rfl

end StoreCall

end PeReview
