import PeReview.Data.Kept
import PeReview.Jobs.SavedProgress
import PeReview.Jobs.Votes

/-!
# The history of a job

What the tables remember of a job beside its protocol state: its identity, its attempts, its
result, what it asks Gerrit to post, its vote, its progress and the audit of its calls.  How
one transaction may add to it, and what is never taken back.
-/

namespace PeReview

open PeReview.Data

/-! ## Rows that are written once -/

/-- The opening of an attempt stays, its events are added to, and once it is finished nothing
else changes. -/
structure Attempt.Continues (before after : Attempt) : Prop where
  stage : after.stage = before.stage
  workerId : after.workerId = before.workerId
  startedAt : after.startedAt = before.startedAt
  toolEvents : before.toolEvents <+: after.toolEvents
  finished : before.finishedAt.isSome →
    after = { before with toolEvents := after.toolEvents }

/-- The decision of a vote stays, its account once it is known, its counts never fall, its
events are added to, and once it is settled it stays so. -/
structure ReviewVote.Continues (before after : ReviewVote) : Prop where
  value : after.value = before.value
  reason : after.reason = before.reason
  findingCount : after.findingCount = before.findingCount
  requestPayload : after.requestPayload = before.requestPayload
  accountId : KeptOption Eq before.accountId after.accountId
  attempts : before.attempts ≤ after.attempts
  retryCount : before.retryCount ≤ after.retryCount
  events : before.events <+: after.events
  settled : before.status.isTerminal = true →
    after.status = before.status ∧ after.response = before.response ∧
      after.attempts = before.attempts ∧ after.accountId = before.accountId

/-- What is asked of Gerrit stays. -/
structure Publication.Continues (before after : Publication) : Prop where
  publicationFingerprint : after.publicationFingerprint = before.publicationFingerprint
  findingFingerprints : after.findingFingerprints = before.findingFingerprints
  requestPayload : after.requestPayload = before.requestPayload

/-- A call stays what it is, and once it is finished its outcome does. -/
structure ReviewInvocationRow.Continues (before after : ReviewInvocationRow) : Prop where
  attempt : after.attempt = before.attempt
  id : after.invocation.id = before.invocation.id
  inputKey : after.invocation.inputKey = before.invocation.inputKey
  phase : after.invocation.phase = before.invocation.phase
  workKey : after.invocation.workKey = before.invocation.workKey
  kind : after.invocation.kind = before.invocation.kind
  finished : before.invocation.status ≠ .started → after = before

def PolicyColumn.Continues (before after : PolicyColumn) : Prop :=
  ∀ policy, before = .bound policy → after = .bound policy

theorem growth_attempt : Growth Attempt.Continues where
  refl attempt := ⟨rfl, rfl, rfl, List.prefix_refl _, fun _ => rfl⟩
  trans := by
    intro first second third before after
    constructor
    · exact after.stage.trans before.stage
    · exact after.workerId.trans before.workerId
    · exact after.startedAt.trans before.startedAt
    · exact before.toolEvents.trans after.toolEvents
    · intro finished
      have middle := before.finished finished
      have stillFinished : second.finishedAt.isSome = true := by
        rw [middle]
        exact finished
      have last := after.finished stillFinished
      rw [last, middle]

theorem growth_vote : Growth ReviewVote.Continues where
  refl vote :=
    ⟨rfl, rfl, rfl, rfl, growth_eq.kept.refl _, Nat.le_refl _, Nat.le_refl _,
      List.prefix_refl _, fun _ => ⟨rfl, rfl, rfl, rfl⟩⟩
  trans := by
    intro first second third before after
    constructor
    · exact after.value.trans before.value
    · exact after.reason.trans before.reason
    · exact after.findingCount.trans before.findingCount
    · exact after.requestPayload.trans before.requestPayload
    · exact growth_eq.kept.trans before.accountId after.accountId
    · exact Nat.le_trans before.attempts after.attempts
    · exact Nat.le_trans before.retryCount after.retryCount
    · exact before.events.trans after.events
    · intro settled
      obtain ⟨status, response, attempts, account⟩ := before.settled settled
      have still : second.status.isTerminal = true := by
        rw [status]
        exact settled
      obtain ⟨lastStatus, lastResponse, lastAttempts, lastAccount⟩ := after.settled still
      exact ⟨lastStatus.trans status, lastResponse.trans response,
        lastAttempts.trans attempts, lastAccount.trans account⟩

theorem growth_publication : Growth Publication.Continues where
  refl publication := ⟨rfl, rfl, rfl⟩
  trans := by
    intro first second third before after
    constructor
    · exact after.publicationFingerprint.trans before.publicationFingerprint
    · exact after.findingFingerprints.trans before.findingFingerprints
    · exact after.requestPayload.trans before.requestPayload

theorem growth_invocation : Growth ReviewInvocationRow.Continues where
  refl row := ⟨rfl, rfl, rfl, rfl, rfl, rfl, fun _ => rfl⟩
  trans := by
    intro first second third before after
    constructor
    · exact after.attempt.trans before.attempt
    · exact after.id.trans before.id
    · exact after.inputKey.trans before.inputKey
    · exact after.phase.trans before.phase
    · exact after.workKey.trans before.workKey
    · exact after.kind.trans before.kind
    · intro finished
      have middle := before.finished finished
      have last := after.finished (middle ▸ finished)
      exact last.trans middle

theorem growth_policy : Growth PolicyColumn.Continues where
  refl policy := fun _ same => same
  trans := by
    intro first second third before after policy same
    exact after policy (before policy same)

def ReviewProgressRow.Continues (before after : ReviewProgressRow) : Prop :=
  before.payload.Advances after.payload

theorem growth_progress : Growth ReviewProgressRow.Continues where
  refl row := ReviewProgress.Advances.refl row.payload
  trans := ReviewProgress.Advances.trans

/-! ## Histories -/

/-- What the tables remember of a job. -/
structure History where
  event : GerritPatchsetEvent
  reviewPolicyVersion : String
  createdAt : Time
  policy : Option PolicyColumn
  attemptCount : Nat
  retryEpochStartAttempt : Nat
  attempts : List Attempt
  result : Option ReviewResultRow
  publication : Option Publication
  vote : Option ReviewVote
  progress : Dict String ReviewProgressRow
  invocations : List ReviewInvocationRow

def Job.history (job : Job) : History :=
  { event := job.eventPayload
    reviewPolicyVersion := job.reviewPolicyVersion
    createdAt := job.createdAt
    policy := job.projectReviewPolicy
    attemptCount := job.attemptCount
    retryEpochStartAttempt := job.retryEpochStartAttempt
    attempts := job.attempts
    result := job.result
    publication := job.publication
    vote := job.vote
    progress := job.progress
    invocations := job.invocations }

namespace History

/-- Nothing of a history is taken back; the progress of a job that is over may be pruned. -/
structure Continues (before after : History) : Prop where
  event : after.event = before.event
  reviewPolicyVersion : after.reviewPolicyVersion = before.reviewPolicyVersion
  createdAt : after.createdAt = before.createdAt
  policy : KeptOption PolicyColumn.Continues before.policy after.policy
  attemptCount : before.attemptCount ≤ after.attemptCount
  retryEpoch : before.retryEpochStartAttempt ≤ after.retryEpochStartAttempt
  attempts : KeptAt Attempt.Continues before.attempts after.attempts
  result : KeptOption Eq before.result after.result
  publication : KeptOption Publication.Continues before.publication after.publication
  vote : KeptOption ReviewVote.Continues before.vote after.vote
  invocations : KeptAt ReviewInvocationRow.Continues before.invocations after.invocations

theorem growth : Growth Continues where
  refl _ :=
    { event := rfl
      reviewPolicyVersion := rfl
      createdAt := rfl
      policy := growth_policy.kept.refl _
      attemptCount := Nat.le_refl _
      retryEpoch := Nat.le_refl _
      attempts := growth_attempt.keptAt.refl _
      result := growth_eq.kept.refl _
      publication := growth_publication.kept.refl _
      vote := growth_vote.kept.refl _
      invocations := growth_invocation.keptAt.refl _ }
  trans before after :=
    { event := after.event.trans before.event
      reviewPolicyVersion := after.reviewPolicyVersion.trans before.reviewPolicyVersion
      createdAt := after.createdAt.trans before.createdAt
      policy := growth_policy.kept.trans before.policy after.policy
      attemptCount := Nat.le_trans before.attemptCount after.attemptCount
      retryEpoch := Nat.le_trans before.retryEpoch after.retryEpoch
      attempts := growth_attempt.keptAt.trans before.attempts after.attempts
      result := growth_eq.kept.trans before.result after.result
      publication := growth_publication.kept.trans before.publication after.publication
      vote := growth_vote.kept.trans before.vote after.vote
      invocations := growth_invocation.keptAt.trans before.invocations after.invocations }

end History

end PeReview
