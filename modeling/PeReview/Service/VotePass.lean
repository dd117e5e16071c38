import PeReview.Process.Protocol
import PeReview.Service.Worker

/-!
# What a pass does about its vote

The protocol a worker keeps to with the vote of its job, from the moment it claims the job until
it is done with it: the vote is dispatched only after the comments of the job were recorded as
posted, the vote was read with attempts to spare, and the change was seen without the marker of
the vote; and a vote leaves the worker only under a dispatch that was recorded.
-/

namespace PeReview

open PeReview.Process

/-- How far a pass has come with the vote of its job. -/
structure VotePass where
  job : JobId
  /-- The comments of the job were recorded as posted. -/
  commented : Bool := false
  /-- The attempts of the vote, as it was read since the pass last wrote it. -/
  read : Option Nat := none
  /-- The change was seen. -/
  observed : Bool := false
  /-- The change was seen with the marker of the vote. -/
  marked : Bool := false
  /-- The payload of a recorded dispatch whose POST has not left yet. -/
  permit : Option VoteInput := none
  deriving DecidableEq, Repr

/-- The calls the vote of a job depends on. -/
def Call.isVote : Call → Bool
  | .store (.completePublicationAndMarkDone _ _ _ _) | .store (.voteOf _)
  | .store (.ensureVote _ _ _) | .store (.dispatchVote _ _) | .store (.retryVote _ _)
  | .store (.finishVote _ _ _ _ _) | .codeReviewVoteObservation _ _ _ | .postVote _ _ => true
  | _ => false

namespace VotePass

def fresh (id : JobId) : VotePass :=
  { job := id }

/-- The transaction that records the comments as posted has answered. -/
def completes (pass : VotePass) (deferDone : Bool) : Except PyError JobRecord → VotePass
  | .ok _ => { pass with commented := pass.commented || deferDone }
  | .error _ => pass

def reads (pass : VotePass) : Except PyError (Option ReviewVote) → VotePass
  | .ok (some vote) => { pass with read := some vote.attempts }
  | _ => pass

def dispatches (pass : VotePass) : Except PyError ReviewVote → VotePass
  | .ok vote => { pass with read := none, permit := vote.requestPayload }
  | .error _ => { pass with read := none, permit := none }

def observes (pass : VotePass) : Except PyError VoteObservation → VotePass
  | .ok observation =>
      { pass with observed := true, marked := pass.marked || observation.markerFound }
  | .error _ => pass

/-- What an answer tells a pass. -/
def next (pass : VotePass) : (request : Call) → Answer request → VotePass
  | .store (.completePublicationAndMarkDone _ _ _ deferDone), answer =>
      pass.completes deferDone answer
  | .store (.voteOf _), answer => pass.reads answer
  | .store (.ensureVote _ _ _), _ => { pass with read := none }
  | .store (.dispatchVote _ _), answer => pass.dispatches answer
  | .store (.retryVote _ _), _ => { pass with read := none }
  | .store (.finishVote _ _ _ _ _), _ => { pass with read := none }
  | .codeReviewVoteObservation _ _ _, answer => pass.observes answer
  | .postVote _ _, _ => { pass with permit := none }
  | _, _ => pass

structure Ready (limit : Nat) (pass : VotePass) : Prop where
  commented : pass.commented = true
  observed : pass.observed = true
  unmarked : pass.marked = false
  spare : ∃ attempts, pass.read = some attempts ∧ attempts < limit

def Allowed (limit : Nat) (pass : VotePass) : Call → Prop
  | .store (.completePublicationAndMarkDone _ id _ _) => id = pass.job
  | .store (.voteOf id) => id = pass.job
  | .store (.ensureVote id _ _) => id = pass.job
  | .store (.dispatchVote id _) => id = pass.job ∧ pass.Ready limit
  | .store (.retryVote id _) => id = pass.job
  | .store (.finishVote id _ _ _ _) => id = pass.job
  | .codeReviewVoteObservation id _ _ => id = pass.job
  | .postVote id payload => id = pass.job ∧ pass.permit = some payload
  | _ => True

end VotePass

/-- The transaction answers with the record of its job. -/
def AnswersFor (id : JobId) (answer : Except PyError JobRecord) : Prop :=
  ∀ record, answer = .ok record → record.id = id

/-- The records a pass goes on with are those of its job. -/
def Call.Answers : (request : Call) → Answer request → Prop
  | .store (.transition id _ _), answer => AnswersFor id answer
  | .store (.completePublicationAndMarkDone _ id _ _), answer => AnswersFor id answer
  | _, _ => True

def voteProtocol (limit : Nat) : Protocol Call Answer VotePass where
  allowed := VotePass.Allowed limit
  answers := Call.Answers
  next := VotePass.next

/-- Calls that do not concern the vote are ignored. -/
theorem voteProtocol_ignores {limit : Nat} (pass : VotePass) (request : Call)
    (voteless : request.isVote = false) :
    (voteProtocol limit).allowed pass request ∧
      ∀ answer, (voteProtocol limit).next pass request answer = pass := by
  cases request with
  | store call => cases call <;> first | exact ⟨True.intro, fun _ => rfl⟩ | cases voteless
  | codeReviewVoteObservation | postVote => cases voteless
  | _ => exact ⟨True.intro, fun _ => rfl⟩

namespace VotePass

variable {pass : VotePass}

theorem job_completes {deferDone : Bool} (answer : Except PyError JobRecord) :
    (pass.completes deferDone answer).job = pass.job := by
  cases answer <;> rfl

theorem job_reads (answer : Except PyError (Option ReviewVote)) :
    (pass.reads answer).job = pass.job := by
  rcases answer with _ | _ | _ <;> rfl

theorem job_dispatches (answer : Except PyError ReviewVote) :
    (pass.dispatches answer).job = pass.job := by
  cases answer <;> rfl

theorem job_observes (answer : Except PyError VoteObservation) :
    (pass.observes answer).job = pass.job := by
  cases answer <;> rfl

/-- A pass is about one job. -/
theorem job_next (request : Call) (answer : Answer request) :
    (pass.next request answer).job = pass.job := by
  cases request with
  | store call =>
      cases call with
      | completePublicationAndMarkDone => exact job_completes answer
      | voteOf => exact job_reads answer
      | dispatchVote => exact job_dispatches answer
      | _ => rfl
  | codeReviewVoteObservation => exact job_observes answer
  | _ => rfl

end VotePass

/-! ## Tasks that do not concern the vote -/

def Task.Voteless {Value : Type} (task : Task Value) : Prop :=
  Program.Only (fun request => request.isVote = false) task.run

namespace Task.Voteless

variable {Value Final : Type}

theorem pure {value : Value} : Task.Voteless (Pure.pure value) :=
  Program.Only.done

theorem throw {error : PyError} : Task.Voteless (MonadExcept.throw error : Task Value) :=
  Program.Only.done

theorem ite {condition : Prop} [Decidable condition] {first second : Task Value}
    (holds : first.Voteless) (fails : second.Voteless) :
    (if condition then first else second).Voteless := by
  split
  · exact holds
  · exact fails

/-- What stands after a `raise` is not reached. -/
theorem throw_bind {error : PyError} {rest : Value → Task Final} :
    Task.Voteless ((MonadExcept.throw error : Task Value) >>= rest) :=
  Program.Only.done

theorem ofExcept {value : Except PyError Value} :
    Task.Voteless (ExceptT.mk (.done value) : Task Value) :=
  Program.Only.done

theorem bind {task : Task Value} {rest : Value → Task Final} (first : task.Voteless)
    (second : ∀ value, (rest value).Voteless) : Task.Voteless (task >>= rest) :=
  Program.Only.bindExcept first second

theorem tryCatch {task : Task Value} {handler : PyError → Task Value} (first : task.Voteless)
    (handled : ∀ error, (handler error).Voteless) :
    Task.Voteless (MonadExcept.tryCatch task handler) :=
  Program.Only.tryCatch first handled

theorem store {call : StoreCall} (kind : (Call.store call).isVote = false) :
    (Task.store call).Voteless :=
  Program.Only.perform kind

theorem plain {request : Call} (kind : request.isVote = false) : (Task.plain request).Voteless :=
  Program.Only.bind (Program.Only.perform kind) fun _ => Program.Only.done

end Task.Voteless

namespace Task.Voteless

variable {settings : Settings} {job : JobRecord} {stage : AttemptStage} {error : PyError}
  {attempt : AttemptId}

theorem ensureLease : (PeReview.ensureLease job).Voteless := by
  unfold PeReview.ensureLease
  refine bind (plain rfl) ?_
  intro lost
  cases lost with
  | true => exact throw
  | false => exact pure

theorem moveFrom {source target : JobState} : (PeReview.moveFrom job source target).Voteless := by
  unfold PeReview.moveFrom
  exact ite (store rfl) pure

theorem startAttempt : (PeReview.startAttempt job stage).Voteless :=
  store rfl

theorem finishAttempt {success : Bool} {retryable : Option Bool} {error : Option PyError} :
    (PeReview.finishAttempt attempt success retryable error).Voteless :=
  store rfl

theorem finishAttemptIfOpen {success : Bool} {retryable : Option Bool}
    {error : Option PyError} :
    (PeReview.finishAttemptIfOpen attempt success retryable error).Voteless := by
  refine tryCatch finishAttempt ?_
  intro raised
  split
  · exact pure
  · exact throw

theorem finishStarted {attempt : Option AttemptId} {success : Bool} {retryable : Option Bool}
    {error : Option PyError} :
    (PeReview.finishStarted attempt success retryable error).Voteless := by
  cases attempt with
  | none => exact pure
  | some attempt => exact finishAttemptIfOpen

theorem providerRetryExhausted {count : Nat} {elapsed : Time} {lastError : Option PyError} :
    (PeReview.providerRetryExhausted job count elapsed lastError).Voteless := by
  unfold PeReview.providerRetryExhausted
  exact bind (store rfl) fun _ => pure

theorem providerUnavailable : (PeReview.providerUnavailable settings job stage).Voteless := by
  unfold PeReview.providerUnavailable
  split
  · refine bind (store rfl) ?_
    intro provider
    split
    · exact pure
    · split
      · exact pure
      · refine bind (plain rfl) ?_
        intro now
        dsimp only
        split
        · exact bind providerRetryExhausted fun _ => pure
        · exact pure
  · exact pure

theorem canStartAttempt : (PeReview.canStartAttempt settings job stage).Voteless := by
  unfold PeReview.canStartAttempt
  refine bind providerUnavailable ?_
  intro unavailable
  split
  · exact pure
  · refine bind (store rfl) ?_
    intro consumed
    split
    · exact pure
    · split
      · exact pure
      · exact bind (store rfl) fun _ => pure

theorem retryDelay {retryAfterSeconds : Option Nat} {attempt : Nat} :
    (PeReview.retryDelay retryAfterSeconds attempt).Voteless := by
  cases retryAfterSeconds with
  | none => exact plain rfl
  | some seconds => exact pure

theorem providerRetryAfter :
    (PeReview.providerRetryAfter settings job stage error).Voteless := by
  unfold PeReview.providerRetryAfter
  refine bind (store rfl) ?_
  intro provider
  refine bind (plain rfl) ?_
  intro now
  dsimp only
  split
  · exact bind providerRetryExhausted fun _ => pure
  · exact bind retryDelay fun _ => pure

theorem parkJob {id : JobId} {retryAfter : Time} :
    (PeReview.parkJob id stage error retryAfter).Voteless := by
  unfold PeReview.parkJob
  refine bind (store rfl) ?_
  intro current
  split
  · dsimp only
    split
    · refine bind (plain rfl) ?_
      intro now
      exact bind (store rfl) fun _ => pure
    · exact throw
  · exact pure

theorem scheduleRetry {id : JobId} {allowRecoveryPass : Bool} :
    (PeReview.scheduleRetry settings id stage error allowRecoveryPass).Voteless := by
  unfold PeReview.scheduleRetry
  refine bind (store rfl) ?_
  intro job
  split
  · dsimp only
    refine bind (store rfl) ?_
    intro stageAttempts
    split
    · refine bind providerRetryAfter ?_
      intro retryAfter
      split
      · exact parkJob
      · exact pure
    · split
      · exact bind (store rfl) fun _ => pure
      · exact bind retryDelay fun _ => parkJob
  · exact pure

theorem permanentFailure : (PeReview.permanentFailure job error).Voteless := by
  unfold PeReview.permanentFailure
  refine bind (store rfl) ?_
  intro current
  split
  · split
    · exact pure
    · exact bind (store rfl) fun _ => pure
  · exact pure

theorem publishGuard {id : JobId} : (PeReview.publishGuard id).Voteless := by
  unfold PeReview.publishGuard
  refine bind (store rfl) ?_
  intro status
  cases status with
  | leaseLost => exact throw
  | ok => exact pure
  | superseded => exact pure

theorem ensureCurrentRevision {allowMerged : Bool} :
    (PeReview.ensureCurrentRevision job allowMerged).Voteless := by
  unfold PeReview.ensureCurrentRevision
  refine bind (Program.Only.perform rfl) ?_
  intro change
  dsimp only
  split
  · exact throw_bind
  · split
    · exact throw_bind
    · exact pure

theorem sendReview {payload : ReviewInput} : (PeReview.sendReview job payload).Voteless := by
  unfold PeReview.sendReview
  refine bind (plain rfl) ?_
  intro number
  exact bind (plain rfl) fun _ => ofExcept

theorem hasPublishedReview {summary tag : String} :
    (PeReview.hasPublishedReview job summary tag).Voteless := by
  unfold PeReview.hasPublishedReview
  exact bind (plain rfl) fun _ => Program.Only.perform rfl

theorem publishReviewInput {send : Task GerritResponse} {prePostGuard : Task Bool}
    {allowMerged : Bool} (guarded : prePostGuard.Voteless) (sent : send.Voteless) :
    (PeReview.publishReviewInput job send prePostGuard allowMerged).Voteless := by
  unfold PeReview.publishReviewInput
  refine bind ensureCurrentRevision ?_
  intro change
  refine bind guarded ?_
  intro current
  cases current with
  | false => exact throw_bind
  | true => exact sent

end Task.Voteless

/-! ## The review -/

def Task.Block.Voteless {Locals Value : Type} (body : Task.Block Locals Value) : Prop :=
  ∀ locals, Program.Only (fun request => request.isVote = false) (body.run locals)

namespace Task.Block.Voteless

variable {Locals Value Final : Type}

theorem block {task : Task Value} (voteless : task.Voteless) :
    Task.Block.Voteless (Task.block task : Task.Block Locals Value) := by
  intro locals
  exact Program.Only.bind voteless fun _ => Program.Only.done

theorem bind {body : Task.Block Locals Value} {rest : Value → Task.Block Locals Final}
    (first : body.Voteless) (second : ∀ value, (rest value).Voteless) :
    Task.Block.Voteless (body >>= rest) := by
  intro locals
  refine Program.Only.bind (first locals) ?_
  rintro ⟨result, final⟩
  cases result with
  | error error => exact Program.Only.done
  | ok value => exact second value final

theorem set_bind {final : Locals} {rest : PUnit → Task.Block Locals Final}
    (second : (rest ⟨⟩).Voteless) :
    Task.Block.Voteless (MonadStateOf.set final >>= rest) := by
  intro locals
  exact second final

end Task.Block.Voteless

namespace Task.Voteless

variable {worker : ReviewWorker} {job : JobRecord} {Value : Type}

theorem tryWith {Locals : Type} {locals : Locals} {body : Task.Block Locals Value}
    {handler : Locals → PyError → Task Value} (inside : body.Voteless)
    (handled : ∀ final error, (handler final error).Voteless) :
    (Task.tryWith locals body handler).Voteless := by
  refine Program.Only.bind (inside locals) ?_
  rintro ⟨result, final⟩
  cases result with
  | error error => exact handled final error
  | ok value => exact Program.Only.done

theorem answerEngine {id : JobId} {attempt : Option AttemptId} (request : EngineCall) :
    (PeReview.answerEngine id attempt request).Only fun request => request.isVote = false := by
  have backend : ∀ (context : String) (call : StoreCall), (Call.store call).isVote = false →
      (backendCall context call).Only fun request => request.isVote = false := by
    intro context call kind
    refine Program.Only.bind (Program.Only.perform kind) ?_
    intro answer
    cases answer <;> exact Program.Only.done
  cases request with
  | load inputKey => exact backend _ _ rfl
  | save progress => exact backend _ _ rfl
  | recordInvocation invocation => exact backend _ _ rfl
  | totals => exact backend _ _ rfl
  | legacy => exact Program.Only.perform rfl
  | toolTrace event =>
      cases attempt with
      | none => exact Program.Only.done
      | some attempt =>
          exact Program.Only.bind (Program.Only.perform rfl) fun _ => Program.Only.done
  | ask request => exact Program.Only.perform rfl

theorem runEngine {id : JobId} {attempt : Option AttemptId} {program : EngineProgram Value} :
    (PeReview.runEngine id attempt program).Voteless :=
  Program.Only.handle answerEngine program

theorem enterValidating : (PeReview.enterValidating job).Voteless := by
  unfold PeReview.enterValidating
  exact ite pure (ite (store rfl) throw)

theorem promoteReviewResult {review : ReviewResult} {history : FindingHistory} :
    (PeReview.promoteReviewResult worker job review history).Voteless := by
  unfold PeReview.promoteReviewResult
  refine bind ofExcept ?_
  intro policy
  refine bind ensureLease ?_
  intro _
  refine bind enterValidating ?_
  intro job
  refine bind ensureLease ?_
  intro _
  exact bind (store rfl) fun _ => pure

theorem recoverCompletedReview {context : ReviewContext} {history : FindingHistory}
    {engine : ReviewEngine} :
    (PeReview.recoverCompletedReview worker job context history engine).Voteless := by
  unfold PeReview.recoverCompletedReview
  refine bind runEngine ?_
  intro recovered
  cases recovered with
  | none => exact pure
  | some review => exact bind promoteReviewResult fun _ => pure

theorem probeCompletedReview {context : ReviewContext} {history : FindingHistory}
    {engine : ReviewEngine} :
    (PeReview.probeCompletedReview worker job context history engine).Voteless := by
  refine tryCatch recoverCompletedReview ?_
  intro error
  split
  · exact bind scheduleRetry fun _ => pure
  · exact throw

theorem attemptReview {context : ReviewContext} {history : FindingHistory}
    {engine : ReviewEngine} :
    (PeReview.attemptReview worker job context history engine).Voteless := by
  unfold PeReview.attemptReview
  refine bind canStartAttempt ?_
  intro allowed
  split
  · exact pure
  · refine bind startAttempt ?_
    intro reviewAttempt
    refine tryCatch ?_ ?_
    · refine bind runEngine ?_
      intro review
      exact bind promoteReviewResult fun _ => finishAttempt
    · intro error
      split
      · refine bind finishAttemptIfOpen ?_
        intro _
        refine bind probeCompletedReview ?_
        intro isOver
        split
        · exact throw
        · exact pure
      · exact bind finishAttemptIfOpen fun _ => throw

theorem readBaselineText {workspace : RepositoryWorkspace} {path : String} {maxBytes : Nat} :
    (PeReview.readBaselineText workspace path maxBytes).Voteless :=
  Program.Only.perform rfl

theorem loadPolicyFiles {settings : Settings} {baseRevisionSha : String}
    {readRevisionText : String → Nat → Task (Option String)}
    (reads : ∀ path maxBytes, (readRevisionText path maxBytes).Voteless)
    (paths sections : List String) (used : Nat) :
    (PeReview.loadPolicyFiles settings baseRevisionSha readRevisionText paths sections
      used).Voteless := by
  induction paths generalizing sections used with
  | nil => exact pure
  | cons path rest inductionHypothesis =>
      unfold PeReview.loadPolicyFiles
      split
      · exact pure
      · dsimp only
        refine bind (reads path _) ?_
        intro text
        cases text with
        | none => exact inductionHypothesis sections used
        | some text =>
            dsimp only
            split
            · exact inductionHypothesis sections used
            · exact inductionHypothesis _ _

theorem loadPolicy {settings : Settings} {baseRevisionSha : Option String}
    {readRevisionText : String → Nat → Task (Option String)}
    (reads : ∀ path maxBytes, (readRevisionText path maxBytes).Voteless) :
    (PeReview.loadPolicy settings baseRevisionSha readRevisionText).Voteless := by
  unfold PeReview.loadPolicy
  split
  · exact pure
  · exact pure
  · exact bind (loadPolicyFiles reads _ _ _) fun _ => pure

theorem reviewWorkspace {change : GerritChange} {workspace : RepositoryWorkspace} :
    (PeReview.reviewWorkspace worker job change workspace).Voteless := by
  unfold PeReview.reviewWorkspace
  refine bind (store rfl) ?_
  intro policy
  dsimp only
  refine bind (loadPolicy fun _ _ => readBaselineText) ?_
  intro policyText
  refine bind (store rfl) ?_
  intro history
  refine bind probeCompletedReview ?_
  intro isOver
  split
  · exact attemptReview
  · exact pure

theorem withWorkspace {Locals : Type} {ref : Option String}
    {body : RepositoryWorkspace → Task.Block Locals Value}
    (inside : ∀ workspace, (body workspace).Voteless) :
    Task.Block.Voteless (PeReview.withWorkspace job ref body) := by
  unfold PeReview.withWorkspace
  refine Task.Block.Voteless.bind (Task.Block.Voteless.block (Program.Only.perform rfl)) ?_
  intro workspace locals
  refine Program.Only.bind (inside workspace locals) ?_
  rintro ⟨result, final⟩
  refine Program.Only.bind (Program.Only.perform rfl) ?_
  intro closed
  cases closed <;> exact Program.Only.done

theorem fetchAndReview {fetchAttempt : AttemptId} :
    Task.Block.Voteless (PeReview.fetchAndReview worker job fetchAttempt) := by
  unfold PeReview.fetchAndReview
  refine Task.Block.Voteless.bind (Task.Block.Voteless.block ensureCurrentRevision) ?_
  intro change
  refine withWorkspace ?_
  intro workspace
  refine Task.Block.Voteless.bind (Task.Block.Voteless.block ensureLease) ?_
  intro _
  refine Task.Block.Voteless.bind (Task.Block.Voteless.block finishAttempt) ?_
  intro _
  refine Task.Block.Voteless.bind (Task.Block.Voteless.block moveFrom) ?_
  intro moved
  exact Task.Block.Voteless.set_bind (Task.Block.Voteless.block reviewWorkspace)

theorem recoverReview {fetchAttempt : AttemptId} {failureStage : AttemptStage}
    {error : PyError} :
    (PeReview.recoverReview worker job fetchAttempt failureStage error).Voteless := by
  unfold PeReview.recoverReview
  split
  · refine bind finishAttemptIfOpen ?_
    intro _
    exact bind (store rfl) fun _ => pure
  · split
    · exact bind finishAttemptIfOpen fun _ => scheduleRetry
    · split
      · exact bind finishAttemptIfOpen fun _ => permanentFailure
      · exact throw

theorem processReview : (PeReview.processReview worker job).Voteless := by
  unfold PeReview.processReview
  refine bind moveFrom ?_
  intro job
  refine bind canStartAttempt ?_
  intro allowed
  split
  · exact pure
  · refine bind startAttempt ?_
    intro fetchAttempt
    exact tryWith fetchAndReview fun _ _ => recoverReview

end Task.Voteless

end PeReview
