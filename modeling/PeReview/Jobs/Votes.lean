import PeReview.Jobs.Store.Basic
import PeReview.Review.ProjectPolicy

/-!
# Durable votes

`VoteStore` of `jobs/votes.py`.
-/

namespace PeReview

open PeReview.Data

/-- `text[:length]`. -/
def pyTake (length : Nat) (text : String) : String :=
  String.ofList (text.toList.take length)

/-- `status.lower()` of a terminal status. -/
def VoteStatus.lower : VoteStatus → String
  | .pending => "pending"
  | .ambiguous => "ambiguous"
  | .applied => "applied"
  | .skipped => "skipped"
  | .failed => "failed"

namespace Job

/-- `VoteStore._guard`. -/
def voteGuard (id : JobId) (worker : WorkerId) (now : Time) (job : Job) :
    Except PyError Unit := do
  job.requireLiveLease id worker now
  Except.require (job.state = .publishing)
    (.runtime "vote requires a live PUBLISHING job")

@[simp]
theorem voteGuard_eq_ok {id : JobId} {worker : WorkerId} {now : Time}
    {job : Job} {value : Unit} :
    job.voteGuard id worker now = .ok value ↔
      job.live worker now = true ∧ job.state = .publishing := by
  unfold voteGuard
  simp [Except.bind_eq_ok]

end Job

namespace Store

/-- `VoteStore.get`. -/
def voteOf (store : Store) (id : JobId) : Option ReviewVote :=
  (store.jobs[id]?).bind Job.vote

/-- `VoteStore.ensure`. -/
def ensureVote (store : Store) (now : Time) (id : JobId) (worker : WorkerId)
    (decision : VoteDecision) (payload : Option VoteInput) :
    Except PyError (Store × ReviewVote) :=
  store.onJob id fun job => do
    job.voteGuard id worker now
    match job.vote with
    | some row => .ok (job, row)
    | none =>
        let row : ReviewVote :=
          { value := decision.value
            reason := decision.reason
            findingCount := decision.findingCount
            status := if decision.value.isNone then .skipped else .pending
            requestPayload := payload }
        .ok ({ job with vote := some row }, row)

/-- `VoteStore.dispatch`. -/
def dispatchVote (store : Store) (now : Time) (id : JobId) (worker : WorkerId)
    (accountId : Int) : Except PyError (Store × ReviewVote) :=
  store.onJob id fun job => do
    job.voteGuard id worker now
    match job.vote with
    | none => .error (.runtime "vote is missing or already terminal")
    | some row =>
        Except.require (!row.status.isTerminal)
          (.runtime "vote is missing or already terminal")
        Except.require (row.accountId.isNone || row.accountId = some accountId)
          (.runtime "vote account identity cannot change")
        let row :=
          { row with
            accountId := some accountId
            attempts := row.attempts + 1
            status := .ambiguous
            events :=
              row.events ++
                [{ event := "post_started"
                   attempt := row.attempts + 1
                   accountId := some accountId
                   ts := now }] }
        .ok ({ job with vote := some row }, row)

/-- `VoteStore.retry`. -/
def retryVote (store : Store) (now : Time) (id : JobId) (worker : WorkerId)
    (error : String) : Except PyError (Store × ReviewVote) :=
  store.onJob id fun job => do
    job.voteGuard id worker now
    match job.vote with
    | none => .error (.key id)
    | some row =>
        let row :=
          { row with
            retryCount := row.retryCount + 1
            lastError := some (pyTake 2000 error)
            events :=
              row.events ++
                [{ event := "retry"
                   attempt := row.retryCount + 1
                   detail := some (pyTake 1000 error)
                   ts := now }] }
        .ok ({ job with vote := some row }, row)

/-- The vote row `finish` leaves: a terminal one is not touched again. -/
def finishedVote (now : Time) (status : VoteStatus)
    (response : Option GerritResponse) (error : Option String)
    (accountId : Option Int) (row : ReviewVote) :
    Except PyError ReviewVote :=
  if row.status.isTerminal then .ok row
  else do
    Except.require
      (accountId.isNone || row.accountId.isNone || row.accountId = accountId)
      (.runtime "vote account identity cannot change")
    .ok
      { row with
        accountId := if accountId.isSome then accountId else row.accountId
        events :=
          row.events ++
            [{ event := status.lower, detail := error, ts := now }]
        status
        response
        lastError := error }

/-- `VoteStore.finish`. -/
def finishVote (store : Store) (now : Time) (id : JobId) (worker : WorkerId)
    (status : VoteStatus) (response : Option GerritResponse := none)
    (error : Option String := none) (accountId : Option Int := none) :
    Except PyError (Store × Unit) := do
  Except.require status.isTerminal
    (.value "vote completion requires a terminal status")
  store.onJob id fun job => do
    job.voteGuard id worker now
    Except.require (job.publication.any fun row => row.status = .posted)
      (.runtime "review comments must be durable before completing a vote")
    match job.vote with
    | none => .error (.key id)
    | some row =>
        let row ← finishedVote now status response error accountId row
        .ok
          ({ job with
            vote := some row
            state := .done
            retryState := none
            leaseOwner := none
            leaseExpiresAt := none
            lastError := none
            lastErrorClass := none }, ())

end Store

end PeReview
