import PeReview.Gerrit.Client

/-!
# Voting

`vote_payload` and `VotePublisher` of `voting.py`.
-/

namespace PeReview

open PeReview.Process

/-- `vote_payload`; `{}` is `none`. -/
def votePayload (id : JobId) (policy : ProjectReviewPolicy)
    (decision : VoteDecision) (review : ReviewResult) (tag : String) :
    Option VoteInput :=
  match decision.value with
  | none => none
  | some value =>
      let part := review.reviewMetadata.lineageComplete = some false
      let count :=
        match decision.findingCount with
        | none => "None"
        | some count => toString count
      let vote := (if value = 0 then "" else "+") ++ toString value
      let explanation :=
        if policy.outputLanguage = "ko-KR" then
          s!"AI 리뷰 투표: 유효 finding {count}건 → Code-Review {vote}." ++
            (if part then
              " 부분 검토 결과에 따른 투표이며 전체 검토 완료를 의미하지 않습니다."
            else "") ++
            " 사람의 코드 리뷰를 대체하지 않습니다."
        else
          s!"AI review vote: {count} validated finding(s) → Code-Review {vote}." ++
            (if part then
              " This vote uses a partial review, not a completed full review."
            else "") ++
            " This does not replace human code review."
      some
        { message := explanation ++ s!"\n\n[review-vote:{id}]"
          tag := tag ++ s!"~vote~{id}"
          codeReview := value
          notify := "NONE" }

/-- `finish` inside `VotePublisher.process`. -/
def finishVote (id : JobId) (status : VoteStatus)
    (error : Option String := none) (response : Option GerritResponse := none)
    (accountId : Option Int := none) : Task Bool := do
  let _ : Unit ← Task.store (.finishVote id status response error accountId)
  return true

/-- The try block of `VotePublisher.process`; its local variable is `posted`. -/
def processVote (settings : Settings) (job : JobRecord) (vote : ReviewVote) :
    Task.Block Bool Bool := do
  let accountId : Int ← Task.block
    (ExceptT.mk (Program.perform Call.authenticatedAccountId))
  if vote.accountId.isSome ∧ vote.accountId ≠ some accountId then
    return ← Task.block
      (finishVote job.id .failed
        (some "Gerrit bot account changed; vote was not replayed."))
  let some payload := vote.requestPayload
    | throw { cls := .keyError, message := "'tag'" }
  let observation : VoteObservation ← Task.block
    (ExceptT.mk
      (Program.perform
        (Call.codeReviewVoteObservation job.id accountId payload)))
  if observation.markerFound then
    if observation.labelExists ∧ some observation.currentValue = vote.value then
      return ← Task.block
        (finishVote job.id .applied none
          (some { recovered := true, codeReview := vote.value })
          (some accountId))
    return ← Task.block
      (finishVote job.id .failed
        (some
          ("The vote message exists but the current bot label " ++
            "differs or was not applied. It was not overwritten.")))
  if observation.changeStatus = "MERGED" then
    return ← Task.block
      (finishVote job.id .skipped
        (some
          ("Change merged after review; no prior bot vote marker was found, " ++
            "so no new Code-Review vote was sent."))
        none (some accountId))
  if !observation.canVote then
    return ← Task.block
      (finishVote job.id .failed
        (some
          ("Code-Review label is absent or the bot lacks " ++
            "permission for the requested value."))
        none (some accountId))
  let limit := settings.publishAttempts
  if limit ≤ vote.attempts ∨ limit ≤ vote.retryCount then
    return ← Task.block
      (finishVote job.id .failed
        (some
          ("Vote retry budget exhausted. An earlier request " ++
            "may be unconfirmed; review comments remain published.")))
  let current ← Task.block (publishGuard job.id)
  if !current then
    return ← Task.block
      (finishVote job.id .skipped
        (some "A newer Patch Set exists; vote not sent."))
  let vote : ReviewVote ← Task.block
    (Task.store (.dispatchVote job.id accountId))
  set true
  let some payload := vote.requestPayload
    | throw { cls := .keyError, message := "'tag'" }
  let response ← Task.block
    (publishReviewInput job (sendVote job payload) (publishGuard job.id))
  if response.codeReview.isSome ∧ response.codeReview = vote.value then
    return ← Task.block
      (finishVote job.id .applied none
        (some { codeReview := response.codeReview }) (some accountId))
  Task.block
    (finishVote job.id .failed
      (some
        ("Gerrit did not confirm the requested Code-Review value; " ++
          "the label may have been ignored. Review comments remain published.")))

/-- What `VotePublisher.process` does about a transient error. -/
def retryVote (settings : Settings) (job : JobRecord) (posted : Bool)
    (error : PyError) : Task Bool := do
  let vote : ReviewVote ← Task.store (.retryVote job.id error.message)
  if settings.publishAttempts ≤ vote.retryCount ∧ posted = false then
    return ← finishVote job.id .failed
      (some ("Vote outcome unconfirmed after retry exhaustion: " ++ error.message))
  let delay ← retryDelay error.retryAfterSeconds vote.retryCount
  let now : Time ← Task.plain .clock
  let _ ← Task.store
    (.scheduleRetry job.id .publishing (now + max second delay)
      (.raised
        (.transient
          ("Review comments posted; Code-Review vote pending: " ++
            error.message))))
  return false

/-- The handlers of `VotePublisher.process`. -/
def recoverVote (settings : Settings) (job : JobRecord) (posted : Bool)
    (error : PyError) : Task Bool :=
  if error.cls = .supersededRevisionError then
    finishVote job.id .skipped
      (some "Patch Set superseded; no further vote requests sent.")
  else if error.cls = .changeNotOpenError then
    if error.status = some "MERGED" then
      finishVote job.id .skipped
        (some
          ("Change merged after review; comments remain published and no " ++
            "Code-Review vote was sent."))
    else finishVote job.id .failed (some error.message)
  else if error.isPermanent then
    finishVote job.id .failed (some error.message)
  else if error.isTransient then retryVote settings job posted error
  else throw error

/-- `VotePublisher.process`. -/
def publishVote (settings : Settings) (job : JobRecord) (allowVote : Bool)
    (skipReason : Option String) : Task Bool := do
  let stored : Option ReviewVote ← Task.store (.voteOf job.id)
  let some vote := stored
    | throw (.runtime "vote intent must exist before processing")
  if vote.status.isTerminal then
    finishVote job.id vote.status
  else if !allowVote then
    finishVote job.id .skipped
      (some
        (if truthy skipReason then skipReason.getD ""
        else
          "Patch Set superseded; no new vote sent. " ++
            "Any earlier unconfirmed vote request remains in the audit."))
  else
    Task.tryWith false (processVote settings job vote)
      (recoverVote settings job)

end PeReview
