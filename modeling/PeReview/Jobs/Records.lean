import PeReview.Jobs.History
import PeReview.Jobs.Refinement

/-!
# What a transaction records

Every transaction of a worker inverted once more, for the history of its job: it leaves the
history alone, or adds one thing to it.
-/

namespace PeReview

open PeReview.Data

/-- The events of a vote account for its counts. -/
structure ReviewVote.Accounted (vote : ReviewVote) : Prop where
  attempts : vote.attempts = vote.events.countP fun event => event.event = "post_started"
  retryCount : vote.retryCount = vote.events.countP fun event => event.event = "retry"
  untried : vote.status = .pending → vote.attempts = 0
  tried : vote.status = .ambiguous → 0 < vote.attempts

/-- The transactions that may write the vote of a job. -/
def StoreCall.writesVote : StoreCall → Bool
  | .ensureVote _ _ _ | .dispatchVote _ _ | .retryVote _ _ | .finishVote _ _ _ _ _ => true
  | _ => false

/-- What one transaction of a worker may add to the history of its job. -/
inductive Records (call : StoreCall) (store : Store) (id : JobId) (history : History) :
    History → Prop
  | nothing : Records call store id history history
  | policy (policy : ProjectReviewPolicy)
      (unbound : ∀ bound, history.policy ≠ some (.bound bound)) :
      Records call store id history { history with policy := some (.bound policy) }
  | start (attempt : Attempt) :
      Records call store id history
        { history with
          attemptCount := history.attemptCount + 1
          attempts := history.attempts ++ [attempt] }
  | attempt (number : Nat) (before after : Attempt)
      (present : history.attempts[number]? = some before)
      (continues : before.Continues after) :
      Records call store id history
        { history with attempts := history.attempts.set number after }
  | result (row : ReviewResultRow) (absent : history.result = none) :
      Records call store id history { history with result := some row }
  | publish (row : Publication) (absent : history.publication = none) :
      Records call store id history { history with publication := some row }
  | publication (before after : Publication) (present : history.publication = some before)
      (continues : before.Continues after) :
      Records call store id history { history with publication := some after }
  | decide (row : ReviewVote) (may : call.writesVote = true) (absent : history.vote = none)
      (accounted : row.Accounted) :
      Records call store id history { history with vote := some row }
  | vote (before after : ReviewVote) (may : call.writesVote = true)
      (present : history.vote = some before)
      (continues : before.Continues after) (accounted : before.Accounted → after.Accounted) :
      Records call store id history { history with vote := some after }
  | save (inputKey : String) (row : ReviewProgressRow)
      (advances : ∀ old, Dict.get? history.progress inputKey = some old →
        old.Continues row) :
      Records call store id history
        { history with progress := Dict.set history.progress inputKey row }
  | invoke (row : ReviewInvocationRow) (own : row.attempt.job = id)
      (known : row.attempt.number < history.attempts.length)
      (fresh : ∀ other ∈ history.invocations,
        other.invocation.id ≠ row.invocation.id)
      (foreign : store.foreignInvocation id row.invocation.id = false) :
      Records call store id history
        { history with invocations := history.invocations ++ [row] }
  | settle (row : ReviewInvocationRow) (invocation : Invocation)
      (present : row ∈ history.invocations) (same : row.invocation.id = invocation.id)
      (running : row.invocation.status = .started) :
      Records call store id history
        { history with
          invocations := Store.updateInvocation history.invocations invocation }

/-- A committed transaction left the store alone or wrote one job. -/
def Store.Recorded (call : StoreCall) (id : JobId) (store target : Store) : Prop :=
  target = store ∨
    ∃ job written, store.jobs[id]? = some job ∧ target = store.setJob id written ∧
      Records call store id job.history written.history

section Transactions

variable {call : StoreCall} {store target : Store} {hashes : Hashes} {now lease : Time}
  {id : JobId} {worker : WorkerId}

/-- A transaction that only writes the protocol state. -/
theorem Records.of_history {job written : Job} (same : written.history = job.history) :
    Records call store id job.history written.history := by
  rw [same]
  exact .nothing

theorem Store.onJob_recorded {Value : Type}
    {transaction : Job → Except PyError (Job × Value)} {value : Value}
    (committed : store.onJob id transaction = .ok (target, value))
    (records : ∀ job written, store.jobs[id]? = some job →
      transaction job = .ok (written, value) →
        Records call store id job.history written.history) :
    Store.Recorded call id store target := by
  obtain ⟨job, written, found, ran, rfl⟩ := Store.onJob_eq_ok.mp committed
  exact Or.inr ⟨job, written, found, rfl, records job written found ran⟩

theorem heartbeat_recorded {alive : Bool}
    (ran : store.heartbeat now lease id worker = (target, alive)) :
    Store.Recorded call id store target := by
  unfold Store.heartbeat at ran
  cases found : store.jobs[id]? with
  | none =>
      simp only [found, Prod.mk.injEq] at ran
      exact Or.inl ran.1.symm
  | some job =>
      simp only [found] at ran
      split at ran
      · cases ran
        exact Or.inr ⟨job, _, found, rfl, .of_history rfl⟩
      · cases ran
        exact Or.inl rfl

theorem refreshPublishGuard_recorded {status : PublishGuardStatus}
    (ran : store.refreshPublishGuard now lease id worker = (target, status)) :
    Store.Recorded call id store target := by
  unfold Store.refreshPublishGuard at ran
  cases found : store.jobs[id]? with
  | none =>
      simp only [found, Prod.mk.injEq] at ran
      exact Or.inl ran.1.symm
  | some job =>
      simp only [found] at ran
      split at ran
      · cases ran
        exact Or.inl rfl
      · split at ran
        · cases ran
          exact Or.inl rfl
        · cases ran
          exact Or.inr ⟨job, _, found, rfl, .of_history rfl⟩

theorem transition_recorded {goal : JobState} {releaseLease : Bool} {record : JobRecord}
    (ran : store.transition now id goal worker releaseLease = .ok (target, record)) :
    Store.Recorded call id store target := by
  refine Store.onJob_recorded ran ?_
  intro job written _ returned
  simp only [Except.bind_eq_ok] at returned
  obtain ⟨_, _, _, _, finished⟩ := returned
  cases finished
  apply Records.of_history
  split <;> rfl

theorem scheduleRetry_recorded {resumeState : JobState} {retryAt : Time} {error : Reason}
    {record : JobRecord}
    (ran : store.scheduleRetry now id resumeState retryAt error worker =
      .ok (target, record)) :
    Store.Recorded call id store target := by
  obtain ⟨_, _, committed⟩ := Except.bind_eq_ok.mp ran
  refine Store.onJob_recorded committed ?_
  intro job written _ returned
  simp only [Except.bind_eq_ok] at returned
  obtain ⟨_, _, _, _, finished⟩ := returned
  cases finished
  exact .of_history rfl

theorem markFailedPermanent_recorded {error : Reason} {record : JobRecord}
    (ran : store.markFailedPermanent now id error worker = .ok (target, record)) :
    Store.Recorded call id store target := by
  refine Store.onJob_recorded ran ?_
  intro job written _ returned
  simp only [Except.bind_eq_ok] at returned
  obtain ⟨_, _, _, _, finished⟩ := returned
  cases finished
  exact .of_history rfl

theorem markSuperseded_recorded {supersededBy : Option JobId} {record : JobRecord}
    (ran : store.markSuperseded now id worker supersededBy = .ok (target, record)) :
    Store.Recorded call id store target := by
  refine Store.onJob_recorded ran ?_
  intro job written _ returned
  split at returned
  · cases returned
    exact .nothing
  · simp only [Except.bind_eq_ok] at returned
    obtain ⟨_, _, _, _, finished⟩ := returned
    cases finished
    exact .of_history rfl

theorem startAttempt_recorded {stage : AttemptStage} {attempt : AttemptId}
    (ran : store.startAttempt now id stage worker = .ok (target, attempt)) :
    Store.Recorded call id store target := by
  unfold Store.startAttempt at ran
  cases found : store.jobs[id]? with
  | none => simp [found] at ran
  | some job =>
      simp only [found] at ran
      split at ran
      · cases ran
        exact Or.inr ⟨job, _, found, rfl, .start _⟩
      · cases ran

/-- An attempt row is replaced by one that continues it. -/
theorem setAttempt_recorded {attempt : AttemptId} {before after : Attempt}
    (present : store.attempt? attempt = some before) (continues : before.Continues after) :
    Store.Recorded call attempt.job store (store.setAttempt attempt after) := by
  obtain ⟨job, found, known⟩ := Option.bind_eq_some_iff.mp present
  have written : store.setAttempt attempt after = store.setJob attempt.job
      { job with attempts := job.attempts.set attempt.number after } := by
    unfold Store.setAttempt
    rw [found]
  exact Or.inr
    ⟨job, _, found, written, .attempt attempt.number before after known continues⟩

theorem finishAttempt_recorded {attempt : AttemptId} {success : Bool}
    {retryable : Option Bool} {error : Option Reason}
    (ran : store.finishAttempt now attempt success retryable error = .ok (target, ())) :
    Store.Recorded call attempt.job store target := by
  unfold Store.finishAttempt at ran
  cases present : store.attempt? attempt with
  | none => simp [present] at ran
  | some row =>
      simp only [present] at ran
      split at ran
      · cases ran
      · rename_i unfinished
        cases ran
        apply setAttempt_recorded present
        refine ⟨rfl, rfl, rfl, List.prefix_refl _, ?_⟩
        intro finished
        exact absurd finished unfinished

theorem appendAttemptToolEvent_recorded {attempt : AttemptId} {event : String}
    (ran : store.appendAttemptToolEvent attempt event = .ok (target, ())) :
    Store.Recorded call attempt.job store target := by
  unfold Store.appendAttemptToolEvent at ran
  cases present : store.attempt? attempt with
  | none => simp [present] at ran
  | some row =>
      simp only [present] at ran
      split at ran
      · cases ran
        exact Or.inl rfl
      · cases ran
        apply setAttempt_recorded present
        exact ⟨rfl, rfl, rfl, List.prefix_append _ _, fun _ => rfl⟩

theorem saveCandidateChunkCheckpoint_recorded {version key : String}
    {checkpoint : CandidateChunkCheckpoint}
    (ran : store.saveCandidateChunkCheckpoint now id worker version key checkpoint =
      .ok (target, ())) :
    Store.Recorded call id store target := by
  refine Store.onJob_recorded ran ?_
  intro job written _ returned
  obtain ⟨_, _, finished⟩ := Except.bind_eq_ok.mp returned
  cases finished
  exact .of_history rfl

theorem saveReviewResultAndMarkReady_recorded {digest : Digest} {review : ReviewResult}
    {record : JobRecord}
    (ran : store.saveReviewResultAndMarkReady digest now id review worker =
      .ok (target, record)) :
    Store.Recorded call id store target := by
  refine Store.onJob_recorded ran ?_
  intro job written _ returned
  obtain ⟨_, _, rest⟩ := Except.bind_eq_ok.mp returned
  split at rest
  · obtain ⟨_, _, finished⟩ := Except.bind_eq_ok.mp rest
    cases finished
    exact .nothing
  · obtain ⟨_, _, finished⟩ := Except.bind_eq_ok.mp rest
    cases finished
    cases absent : job.result with
    | none => exact .result _ absent
    | some row =>
        apply Records.of_history
        unfold Job.history
        dsimp only
        rw [absent]

theorem beginPublication_recorded {payload : ReviewInput} {fingerprints : List String}
    {publication : Publication}
    (ran : store.beginPublication hashes now id worker payload fingerprints =
      .ok (target, publication)) :
    Store.Recorded call id store target := by
  refine Store.onJob_recorded ran ?_
  intro job written _ returned
  simp only [Except.bind_eq_ok] at returned
  obtain ⟨_, _, _, _, rest⟩ := returned
  split at rest
  · rename_i absent
    cases rest
    exact .publish _ absent
  · obtain ⟨_, _, finished⟩ := Except.bind_eq_ok.mp rest
    cases finished
    exact .nothing

theorem updatePublication_recorded {change : Publication → Publication}
    (continues : ∀ row, Publication.Continues row (change row))
    (ran : store.updatePublication id change = .ok (target, ())) :
    Store.Recorded call id store target := by
  unfold Store.updatePublication at ran
  cases found : store.jobs[id]? with
  | none => simp [found] at ran
  | some job =>
      simp only [found] at ran
      cases present : job.publication with
      | none => simp [present] at ran
      | some row =>
          simp only [present] at ran
          cases ran
          exact Or.inr ⟨job, _, found, rfl, .publication row _ present (continues row)⟩

theorem completePublication_recorded {response : Option GerritResponse}
    (ran : store.completePublication now id response = .ok (target, ())) :
    Store.Recorded call id store target := by
  refine updatePublication_recorded ?_ ran
  intro row
  exact ⟨rfl, rfl, rfl⟩

theorem markPublicationAmbiguous_recorded {error : String}
    (ran : store.markPublicationAmbiguous id error = .ok (target, ())) :
    Store.Recorded call id store target := by
  refine updatePublication_recorded ?_ ran
  intro row
  exact ⟨rfl, rfl, rfl⟩

theorem markPublicationFailed_recorded {error : String}
    (ran : store.markPublicationFailed id error = .ok (target, ())) :
    Store.Recorded call id store target := by
  refine updatePublication_recorded ?_ ran
  intro row
  exact ⟨rfl, rfl, rfl⟩

theorem completePublicationAndMarkDone_recorded {publication : JobId}
    {response : Option GerritResponse} {deferDone : Bool} {record : JobRecord}
    (ran : store.completePublicationAndMarkDone now publication id worker response deferDone =
      .ok (target, record)) :
    Store.Recorded call id store target := by
  refine Store.onJob_recorded ran ?_
  intro job written _ returned
  obtain ⟨_, _, rest⟩ := Except.bind_eq_ok.mp returned
  cases present : job.publication with
  | none => simp [present] at rest
  | some row =>
      simp only [present] at rest
      have continues : row.Continues (Store.postedPublication now response row) :=
        ⟨rfl, rfl, rfl⟩
      split at rest
      · cases rest
        exact .nothing
      · simp only [Except.bind_eq_ok] at rest
        obtain ⟨_, _, _, _, rest⟩ := rest
        split at rest
        · simp only [Except.bind_eq_ok] at rest
          obtain ⟨_, _, _, _, finished⟩ := rest
          cases finished
          exact .publication row _ present continues
        · cases rest
          exact .publication row _ present continues

/-- A transaction of the vote store. -/
theorem voteGuarded_recorded {Value : Type} {value : Value}
    {rest : Job → Except PyError (Job × Value)}
    (committed : (store.onJob id fun job => do
        job.voteGuard id worker now
        rest job) = .ok (target, value))
    (records : ∀ job written, rest job = .ok (written, value) →
      Records call store id job.history written.history) :
    Store.Recorded call id store target := by
  refine Store.onJob_recorded committed ?_
  intro job written _ returned
  obtain ⟨_, _, finished⟩ := Except.bind_eq_ok.mp returned
  exact records job written finished

theorem ensureVote_recorded {decision : VoteDecision} {payload : Option VoteInput}
    {vote : ReviewVote}
    (may : call.writesVote = true)
    (ran : store.ensureVote now id worker decision payload = .ok (target, vote)) :
    Store.Recorded call id store target := by
  refine voteGuarded_recorded ran ?_
  intro job written returned
  cases present : job.vote with
  | some row =>
      simp only [present] at returned
      cases returned
      exact .nothing
  | none =>
      simp only [present] at returned
      cases returned
      apply Records.decide _ may present
      refine ⟨rfl, rfl, fun _ => rfl, ?_⟩
      intro ambiguous
      dsimp only at ambiguous
      split at ambiguous <;> cases ambiguous

theorem dispatchVote_recorded {accountId : Int} {vote : ReviewVote}
    (may : call.writesVote = true)
    (ran : store.dispatchVote now id worker accountId = .ok (target, vote)) :
    Store.Recorded call id store target := by
  refine voteGuarded_recorded ran ?_
  intro job written returned
  cases present : job.vote with
  | none => simp [present] at returned
  | some row =>
      simp only [present, Except.bind_eq_ok, Except.require_eq_ok] at returned
      obtain ⟨_, opened, _, account, finished⟩ := returned
      cases finished
      rw [Bool.not_eq_true'] at opened
      apply Records.vote row _ may present
      · refine ⟨rfl, rfl, rfl, rfl, ?_, Nat.le_succ _, Nat.le_refl _,
          List.prefix_append _ _, ?_⟩
        · intro known isKnown
          rw [isKnown] at account
          have same : known = accountId := by simpa using account
          rw [same]
          exact ⟨accountId, rfl, rfl⟩
        · intro settled
          rw [opened] at settled
          cases settled
      · intro accounted
        constructor
        · rw [List.countP_append, ← accounted.attempts]
          rfl
        · rw [List.countP_append, ← accounted.retryCount]
          rfl
        · intro pending
          cases pending
        · exact fun _ => Nat.succ_pos _

theorem retryVote_recorded {error : String} {vote : ReviewVote}
    (may : call.writesVote = true)
    (ran : store.retryVote now id worker error = .ok (target, vote)) :
    Store.Recorded call id store target := by
  refine voteGuarded_recorded ran ?_
  intro job written returned
  cases present : job.vote with
  | none => simp [present] at returned
  | some row =>
      simp only [present] at returned
      cases returned
      apply Records.vote row _ may present
      · exact ⟨rfl, rfl, rfl, rfl, growth_eq.kept.refl _, Nat.le_refl _, Nat.le_succ _,
          List.prefix_append _ _, fun _ => ⟨rfl, rfl, rfl, rfl⟩⟩
      · intro accounted
        constructor
        · rw [List.countP_append, ← accounted.attempts]
          rfl
        · rw [List.countP_append, ← accounted.retryCount]
          rfl
        · exact accounted.untried
        · exact accounted.tried

/-- The row `finish` leaves continues the one it finds. -/
theorem continues_finishedVote {status : VoteStatus} {response : Option GerritResponse}
    {error : Option String} {accountId : Option Int} {row written : ReviewVote}
    (finished : Store.finishedVote now status response error accountId row = .ok written) :
    row.Continues written := by
  unfold Store.finishedVote at finished
  split at finished
  · cases finished
    exact growth_vote.refl row
  · rename_i opened
    obtain ⟨_, account, rest⟩ := Except.bind_eq_ok.mp finished
    cases rest
    refine ⟨rfl, rfl, rfl, rfl, ?_, Nat.le_refl _, Nat.le_refl _, List.prefix_append _ _, ?_⟩
    · intro known isKnown
      cases accountId with
      | none => exact ⟨known, isKnown, rfl⟩
      | some given =>
          rw [isKnown] at account
          have same : known = given := by
            simpa [Except.require_eq_ok] using account
          rw [same]
          exact ⟨given, rfl, rfl⟩
    · exact fun settled => absurd settled opened

theorem accounted_finishedVote {status : VoteStatus} {response : Option GerritResponse}
    {error : Option String} {accountId : Option Int} {row written : ReviewVote}
    (terminal : status.isTerminal = true)
    (finished : Store.finishedVote now status response error accountId row = .ok written)
    (accounted : row.Accounted) : written.Accounted := by
  unfold Store.finishedVote at finished
  split at finished
  · cases finished
    exact accounted
  · obtain ⟨_, _, rest⟩ := Except.bind_eq_ok.mp finished
    cases rest
    have unlike : status.lower ≠ "post_started" ∧ status.lower ≠ "retry" := by
      cases status <;> decide
    constructor
    · rw [List.countP_append, ← accounted.attempts]
      simp [unlike.1]
    · rw [List.countP_append, ← accounted.retryCount]
      simp [unlike.2]
    · intro pending
      dsimp only at pending
      rw [pending] at terminal
      cases terminal
    · intro ambiguous
      dsimp only at ambiguous
      rw [ambiguous] at terminal
      cases terminal

theorem finishVote_recorded {status : VoteStatus} {response : Option GerritResponse}
    {error : Option String} {accountId : Option Int}
    (may : call.writesVote = true)
    (ran : store.finishVote now id worker status response error accountId =
      .ok (target, ())) :
    Store.Recorded call id store target := by
  obtain ⟨_, terminal, committed⟩ := Except.bind_eq_ok.mp ran
  rw [Except.require_eq_ok] at terminal
  refine voteGuarded_recorded committed ?_
  intro job written returned
  obtain ⟨_, _, rest⟩ := Except.bind_eq_ok.mp returned
  cases present : job.vote with
  | none => simp [present] at rest
  | some row =>
      simp only [present] at rest
      obtain ⟨changed, finished, last⟩ := Except.bind_eq_ok.mp rest
      cases last
      exact .vote row changed may present (continues_finishedVote finished)
        (accounted_finishedVote terminal finished)

theorem saveProgress_recorded {progress : ReviewProgress}
    (ran : store.saveProgress now id worker progress = .ok (target, ())) :
    Store.Recorded call id store target := by
  refine Store.onJob_recorded ran ?_
  intro job written _ returned
  obtain ⟨_, _, rest⟩ := Except.bind_eq_ok.mp returned
  split at rest
  · rename_i absent
    cases rest
    apply Records.save
    intro old present
    cases absent.symm.trans present
  · rename_i old present
    obtain ⟨_, admitted, finished⟩ := Except.bind_eq_ok.mp rest
    cases finished
    apply Records.save
    intro other known
    cases present.symm.trans known
    exact ReviewProgress.admits_eq_ok_iff.mp admitted

theorem recordInvocation_recorded {attempt : Option AttemptId} {invocation : Invocation}
    (ran : store.recordInvocation now id worker attempt invocation = .ok (target, ())) :
    Store.Recorded call id store target := by
  refine Store.onJob_recorded ran ?_
  intro job written found returned
  obtain ⟨_, _, rest⟩ := Except.bind_eq_ok.mp returned
  cases attempt with
  | none => cases rest
  | some attempt =>
      simp only [Except.bind_eq_ok, Except.require_eq_ok] at rest
      obtain ⟨_, live, _, foreign, rest⟩ := rest
      split at rest
      · rename_i fresh
        obtain ⟨_, _, finished⟩ := Except.bind_eq_ok.mp rest
        cases finished
        unfold Store.liveAttempt at live
        rw [Bool.and_eq_true, decide_eq_true_eq] at live
        apply Records.invoke { invocation, attempt } live.1
        · cases known : job.attempts[attempt.number]? with
          | none =>
              rw [live.1, found, Option.bind_some, known] at live
              cases live.2
          | some row => exact (List.getElem?_eq_some_iff.mp known).1
        · intro other member same
          have none_ := List.find?_eq_none.mp fresh other member
          exact none_ (decide_eq_true same)
        · simpa using foreign
      · rename_i row present
        obtain ⟨_, _, rest⟩ := Except.bind_eq_ok.mp rest
        have same : row.invocation.id = invocation.id := by
          simpa using List.find?_some present
        split at rest
        · obtain ⟨_, _, finished⟩ := Except.bind_eq_ok.mp rest
          cases finished
          exact .nothing
        · rename_i running
          cases rest
          exact .settle row invocation (List.mem_of_find?_eq_some present) same
            (Decidable.not_not.mp running)

theorem bindProjectReviewPolicy_recorded {defaultLanguage : String}
    {policy : ProjectReviewPolicy}
    (ran : store.bindProjectReviewPolicy now id worker defaultLanguage =
      .ok (target, policy)) :
    Store.Recorded call id store target := by
  refine Store.onJob_recorded ran ?_
  intro job written _ returned
  obtain ⟨_, _, rest⟩ := Except.bind_eq_ok.mp returned
  split at rest
  · rename_i legacy
    cases rest
    apply Records.policy
    intro bound known
    cases legacy.symm.trans known
  · cases rest
    exact .nothing
  · rename_i absent
    cases rest
    apply Records.policy
    intro bound known
    cases absent.symm.trans known

end Transactions

/-- Every committed transaction of a worker adds at most one thing to the history of its
job. -/
theorem StoreCall.run_recorded {hashes : Hashes} {now lease : Time} {worker : WorkerId}
    {call : StoreCall} {store target : Store} {value : call.Result}
    (ran : call.run hashes now lease worker store = .ok (target, value)) :
    Store.Recorded call call.job store target := by
  cases call with
  | heartbeat id => exact heartbeat_recorded (Except.ok.inj ran)
  | refreshPublishGuard id => exact refreshPublishGuard_recorded (Except.ok.inj ran)
  | transition id goal releaseLease => exact transition_recorded ran
  | scheduleRetry id resumeState retryAt error => exact scheduleRetry_recorded ran
  | markFailedPermanent id error => exact markFailedPermanent_recorded ran
  | markSuperseded id supersededBy => exact markSuperseded_recorded ran
  | startAttempt id stage => exact startAttempt_recorded ran
  | finishAttempt attempt success retryable error => exact finishAttempt_recorded ran
  | appendAttemptToolEvent attempt event => exact appendAttemptToolEvent_recorded ran
  | saveCandidateChunkCheckpoint id version key checkpoint =>
      exact saveCandidateChunkCheckpoint_recorded ran
  | saveReviewResultAndMarkReady id review =>
      exact saveReviewResultAndMarkReady_recorded ran
  | beginPublication id payload fingerprints => exact beginPublication_recorded ran
  | completePublication publication response => exact completePublication_recorded ran
  | completePublicationAndMarkDone publication id response deferDone =>
      exact completePublicationAndMarkDone_recorded ran
  | markPublicationAmbiguous publication error =>
      exact markPublicationAmbiguous_recorded ran
  | markPublicationFailed publication error => exact markPublicationFailed_recorded ran
  | ensureVote id decision payload => exact ensureVote_recorded rfl ran
  | dispatchVote id accountId => exact dispatchVote_recorded rfl ran
  | retryVote id error => exact retryVote_recorded rfl ran
  | finishVote id status response error accountId => exact finishVote_recorded rfl ran
  | saveProgress id progress => exact saveProgress_recorded ran
  | recordInvocation id attempt invocation => exact recordInvocation_recorded ran
  | bindProjectReviewPolicy id defaultLanguage =>
      exact bindProjectReviewPolicy_recorded ran
  | loadFindingHistory id =>
      simp only [run] at ran
      cases loaded : store.loadFindingHistory id with
      | error raised => simp [loaded, Except.map] at ran
      | ok history =>
          simp only [loaded, Except.map] at ran
          cases ran
          exact Or.inl rfl
  | get | countConsumedRetryAttempts | providerRetryStatus | loadCandidateChunkCheckpoints
  | loadReviewResult | publicationForJob | isLatestKnownPatchset | voteOf | loadProgress
  | invocationTotals | legacyUsage =>
      cases ran
      exact Or.inl rfl

end PeReview
