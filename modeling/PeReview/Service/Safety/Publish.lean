import PeReview.Service.Publish
import PeReview.Service.Safety.Voting

/-!
# What publication keeps

A review is posted only after a lookup has found none, under a lease that was
just renewed, and while nothing else of the job can commit.
-/

namespace PeReview

open PeReview.Process

/-- No policy is refused with an error of the service. -/
theorem JobRecord.reviewPolicy_plain {job : JobRecord} {error : PyError}
    (refused : job.reviewPolicy = .error error) :
    error.isPlain = true := by
  unfold reviewPolicy at refused
  split at refused
  · cases refused
  · cases refused
  · cases refused
    rfl

/-- No failed request looks like a superseded revision. -/
theorem GerritFailure.toError_cls (failure : GerritFailure) :
    failure.toError.cls ≠ .supersededRevisionError := by
  cases failure <;> simp [toError, PyError.transient, PyError.permanent, PyError.value]

namespace Knowledge

/-- What a worker knows that holds a job with a publication. -/
def holding (states : JobState → Prop) (publication : Publication) : Knowledge :=
  { states
    payload := some publication.requestPayload
    status := some (some publication.status)
    unposted := decide (publication.status ≠ .posted)
    silent := true
    working := true }

/-- Only a plain error, and nothing else is known. -/
theorem plainly_implies_nothing (known : Knowledge) (error : PyError) :
    (known.plainly error).Implies (({} : Knowledge).plainly error) :=
  known.implies_nothing.plainly error

end Knowledge

namespace Site.Triple

variable {site : Site} {known : Knowledge} {settings : Settings}
  {job : JobRecord} {review : ReviewResult}

/-- The lookup of a review. -/
theorem hasPublishedReview {summary tag : String} (about : job.id = site.id)
    (working : known.working = true) (silent : known.silent = true) :
    site.Triple known (hasPublishedReview job summary tag)
      (fun found =>
        { known with lookup := false, settled := true, uncommitted := !found })
      fun error =>
        known.given (∃ failure : GerritFailure, error = failure.toError) := by
  unfold PeReview.hasPublishedReview
  rw [about]
  refine bind (plain (Runs.listMessages working silent)) fun _ => ?_
  refine raises (Runs.messages working rfl) ?_
  intro error
  refine Knowledge.given_implies fun failed => ?_
  have kept : ({ known with lookup := true } : Knowledge).Implies known :=
    fun fact => { Knowledge.Implies.refl known fact with lookup := fun _ => rfl }
  exact kept.trans (Knowledge.implies_given _ failed)

theorem reviewPolicy :
    site.Triple known (ExceptT.mk (.done job.reviewPolicy)) (fun _ => known)
      known.plainly := by
  refine ofExcept ?_
  cases refused : job.reviewPolicy with
  | ok policy => exact .refl known
  | error error =>
      exact Knowledge.implies_given _ (JobRecord.reviewPolicy_plain refused)

/-- Completing a publication whose outcome is known. -/
theorem completeCommentPublication {response : Option GerritResponse}
    {allowVote : Bool} {voteSkipReason : Option String}
    (about : job.id = site.id) (uncovered : known.covered = false)
    (working : known.working = true) (silent : known.silent = true)
    (resolved : known.Resolved)
    (publishing : job.state = .publishing → ∀ state, known.states state →
      state = .publishing) :
    site.Triple known
      (completeCommentPublication settings job review response allowVote
        voteSkipReason)
      (fun _ => {}) ({} : Knowledge).plainly := by
  have finishes : ∀ response, site.Triple known
      (Task.store
        (.completePublicationAndMarkDone site.id site.id response false) >>=
          fun _ => Pure.pure ())
      (fun _ => {}) ({} : Knowledge).plainly := by
    intro response
    refine bind (raises (completePublicationAndMarkDone uncovered
      ⟨working, silent, resolved⟩) ?_) fun _ => pure (Knowledge.implies_nothing _)
    exact Knowledge.plainly_implies_nothing _
  unfold PeReview.completeCommentPublication
  rw [about]
  refine bind (raises reviewPolicy known.plainly_implies_nothing) ?_
  intro policy
  cases policy with
  | none => exact finishes response
  | some policy =>
      dsimp only
      split
      · exact finishes response
      · rename_i state
        refine bind (raises (reads rfl uncovered rfl)
          known.plainly_implies_nothing) fun _ => ?_
        refine bind (raises (completePublicationAndMarkDone uncovered
          ⟨working, silent, resolved⟩)
            (Knowledge.plainly_implies_nothing _)) fun record => ?_
        refine assuming ?_
        rintro ⟨_, same⟩
        refine bind (raises (publishVote same rfl silent ?_) ?_) fun _ =>
          pure (Knowledge.implies_nothing _)
        · exact publishing (by simpa using state)
        · exact Knowledge.plainly_implies_nothing _

section Publications

variable {states : JobState → Prop} {publication : Publication}

/-- What was posted before is known after a successful lookup. -/
theorem holding_of_lookup {found : Bool} :
    ({ Knowledge.holding states publication with
        lookup := false, settled := true, uncommitted := !found }).Implies
      (Knowledge.holding states publication) := by
  intro _
  constructor <;> simp [Knowledge.holding]

/-- A successful lookup settles what was open; a failed one closes the job only if
nothing was. -/
theorem lookupSuperseded {attempt : AttemptId} (about : job.id = site.id)
    (mine : attempt.job = site.id) :
    site.Triple (Knowledge.holding states publication)
      (lookupSuperseded settings job publication attempt)
      (fun posted =>
        if posted.isSome then
          { Knowledge.holding states publication with settled := true }
        else {})
      fun _ => {} := by
  have ends : ∀ known : Knowledge, known.Implies {} := Knowledge.implies_nothing
  have retries : ∀ (retryable : Option Bool) (error : PyError),
      site.Triple (Knowledge.holding states publication)
        (PeReview.finishAttemptIfOpen attempt false retryable (some error) >>=
          fun _ => PeReview.scheduleRetry settings site.id .reconcile error >>=
            fun _ => Pure.pure none)
        (fun posted : Option Bool =>
          if posted.isSome then
            { Knowledge.holding states publication with settled := true }
          else {})
        fun _ => {} := by
    intro retryable error
    refine bind (raises (finishAttemptIfOpen mine rfl) fun _ => ends _)
      fun _ => ?_
    exact bind (raises (scheduleRetry rfl rfl (by simp) (by simp))
      fun _ => ends _) fun _ => pure (ends _)
  unfold PeReview.lookupSuperseded
  rw [about]
  refine tryCatch (bind (raises (hasPublishedReview about rfl rfl)
    (fun _ => Knowledge.given_implies fun _ => .refl _)) fun posted => ?_) ?_
  · refine bind (raises (finishAttempt mine rfl) ?_) fun _ => pure ?_
    · exact fun _ => Knowledge.given_implies fun _ => holding_of_lookup
    · intro _
      constructor <;> simp [Knowledge.holding]
  · intro error
    split
    · exact retries (some true) error
    · split
      · split
        · exact retries (some true) error
        · rename_i settled
          refine bind (raises (finishAttemptIfOpen mine rfl) fun _ => ends _)
            fun _ => ?_
          refine bind (raises (markSuperseded rfl ⟨rfl, ?_⟩) fun _ => ends _)
            fun _ => pure (ends _)
          exact .inr (.inr ⟨_, rfl, by simpa using settled⟩)
      · exact throw (ends _)

theorem reconcileSuperseded (about : job.id = site.id)
    (publishing : job.state = .publishing → ∀ state, states state →
      state = .publishing) :
    site.Triple (Knowledge.holding states publication)
      (reconcileSuperseded settings job review publication)
      (fun _ => {}) fun _ => {} := by
  have ends : ∀ known : Knowledge, known.Implies {} := Knowledge.implies_nothing
  unfold PeReview.reconcileSuperseded
  refine bind (raises (canStartAttempt about rfl (by simp)) fun _ => ends _) ?_
  intro allowed
  cases allowed with
  | false => exact pure (ends _)
  | true =>
      simp only [Bool.not_true, Bool.false_eq_true, if_false, if_true]
      unfold PeReview.startAttempt
      rw [about]
      refine bind (raises (startAttempt rfl) fun _ => ends _) ?_
      intro attempt
      refine assuming ?_
      rintro ⟨_, mine⟩
      refine strengthen ?_ (Knowledge.given_implies fun _ => .refl _)
      refine bind (lookupSuperseded about mine) ?_
      rintro (_ | _ | _)
      · exact pure (ends _)
      · exact bind (raises (markSuperseded rfl ⟨rfl, .inl rfl⟩) fun _ => ends _)
          fun _ => pure (ends _)
      · exact raises (completeCommentPublication about rfl rfl rfl (.inl rfl)
          publishing) fun _ => ends _

/-- A superseded publication is closed once its outcome is known. -/
theorem resolveSupersededPublish {stored : Option Publication}
    (about : job.id = site.id)
    (publishing : job.state = .publishing → ∀ state, states state →
      state = .publishing) :
    site.Triple
      { states
        payload := stored.map Publication.requestPayload
        status := some (stored.map Publication.status)
        unposted := decide (stored.map Publication.status ≠ some .posted)
        silent := true
        working := true }
      (resolveSupersededPublish settings job review stored)
      (fun _ => {}) fun _ => {} := by
  have ends : ∀ known : Knowledge, known.Implies {} := Knowledge.implies_nothing
  unfold PeReview.resolveSupersededPublish
  rw [about]
  cases stored with
  | none =>
      refine bind (raises (markSuperseded rfl ⟨rfl, ?_⟩) fun _ => ends _)
        fun _ => pure (ends _)
      exact .inr (.inr ⟨_, rfl, by simp⟩)
  | some publication =>
      dsimp only
      split
      · rename_i posted
        refine raises (completeCommentPublication about rfl rfl rfl ?_ publishing)
          fun _ => ends _
        exact .inr (.inr ⟨_, rfl, by simp [posted]⟩)
      · rename_i failed
        refine bind (raises (markSuperseded rfl ⟨rfl, ?_⟩) fun _ => ends _)
          fun _ => pure (ends _)
        exact .inr (.inr ⟨_, rfl, by simp [failed]⟩)
      · refine strengthen (reconcileSuperseded about publishing) ?_
        intro _
        constructor <;> simp [Knowledge.holding]
      · refine strengthen (reconcileSuperseded about publishing) ?_
        intro _
        constructor <;> simp [Knowledge.holding]

/-- What holds of the local variables when an error of Gerrit escapes. -/
structure Escaping (site : Site) (error : PyError) (locals : PublishLocals) :
    Prop where
  started : locals.reconcileAttempt.isSome = true ∨ locals.postStarted = true
  observed : locals.postStarted = true →
    locals.reconciliationObservedAbsent = true
  superseded : error.cls = .supersededRevisionError →
    locals.reconciliationObservedAbsent = true
  reconcile : ∀ attempt ∈ locals.reconcileAttempt, attempt.job = site.id
  publish : ∀ attempt ∈ locals.publishAttempt, attempt.job = site.id

/-- The status a failed pass still knows: a lookup that found nothing may have been
followed by a POST. -/
def lastStatus (publication : Publication) (locals : PublishLocals) :
    Option (Option PublicationStatus) :=
  if locals.reconciliationObservedAbsent then none
  else some (some publication.status)

/-- What is known in the handlers of a failed request.  Once the lookup has found
nothing, only a transient error leaves an outcome open. -/
def failing (site : Site) (publication : Publication) (error : PyError)
    (locals : PublishLocals) : Knowledge :=
  { fact := Escaping site error locals
    states := fun state => state = .publishing
    payload := some publication.requestPayload
    status := lastStatus publication locals
    unposted := true
    settled := locals.reconciliationObservedAbsent && !error.isTransient
    silent := true
    working := true }

def escaped (site : Site) (publication : Publication) (error : PyError)
    (locals : PublishLocals) : Knowledge :=
  if error.isPlain then {} else failing site publication error locals

theorem escaped_of_plain {error : PyError} {locals : PublishLocals} 
    (plain : error.isPlain = true) :
    known.Implies (escaped site publication error locals) := by
  rw [escaped, if_pos plain]
  exact Knowledge.implies_nothing known

theorem plainly_escaped {error : PyError} {locals : PublishLocals} :
    (known.plainly error).Implies (escaped site publication error locals) :=
  Knowledge.plainly_implies escaped_of_plain

theorem recoverTransient {error : PyError} {locals : PublishLocals}
    (about : job.id = site.id) (transient : error.isTransient = true) :
    site.Triple (failing site publication error locals)
      (recoverPublish settings job publication locals error)
      (fun _ => {}) fun _ => {} := by
  have ends : ∀ known : Knowledge, known.Implies {} := Knowledge.implies_nothing
  have current : error.cls ≠ .supersededRevisionError := by
    intro superseded
    simp [PyError.isTransient, superseded] at transient
  refine assuming fun escaping => ?_
  unfold PeReview.recoverPublish
  rw [about, if_neg current, if_pos transient]
  split
  · refine bind (raises (finishStarted escaping.reconcile rfl) fun _ => ends _)
      fun _ => ?_
    exact consequence (scheduleRetry rfl rfl (by simp) (by simp)) (.refl _)
      (fun _ => ends _) fun _ => ends _
  · rename_i closed
    have sent : locals.postStarted = true :=
      escaping.started.resolve_left closed
    refine bind (raises (finishStarted escaping.publish rfl) fun _ => ends _)
      fun _ => ?_
    rw [if_pos sent]
    refine bind (raises (markPublicationAmbiguous rfl ⟨rfl, rfl⟩) fun _ => ends _)
      fun _ => ?_
    refine consequence (scheduleRetry rfl rfl ?_ (by simp)) (.refl _)
      (fun _ => ends _) fun _ => ends _
    rintro _ state rfl
    simp

theorem recoverPermanent {error : PyError} {locals : PublishLocals}
    (about : job.id = site.id) (transient : error.isTransient = false)
    (permanent : error.isPermanent = true) :
    site.Triple (failing site publication error locals)
      (recoverPublish settings job publication locals error)
      (fun _ => {}) fun _ => {} := by
  have ends : ∀ known : Knowledge, known.Implies {} := Knowledge.implies_nothing
  refine assuming fun escaping => ?_
  unfold PeReview.recoverPublish
  rw [about]
  split
  · rename_i superseded
    have absent := escaping.superseded superseded
    refine bind (raises (finishStarted escaping.reconcile rfl) fun _ => ends _)
      fun _ => ?_
    refine bind (raises (finishStarted escaping.publish rfl) fun _ => ends _)
      fun _ => ?_
    refine bind (raises (markSuperseded rfl ⟨rfl, .inl ?_⟩) fun _ => ends _)
      fun _ => pure (ends _)
    simp [failing, absent, transient]
  · have intransient : ¬error.isTransient = true := by simp [transient]
    rw [if_neg intransient]
    split
    · refine bind (raises (finishStarted escaping.reconcile rfl) fun _ => ends _)
        fun _ => ?_
      exact consequence (scheduleRetry rfl rfl (by simp) (by simp)) (.refl _)
        (fun _ => ends _) fun _ => ends _
    · rename_i unsure
      -- Either the lookup found nothing, or nothing has been sent before.
      have resolved : (failing site publication error locals).Resolved := by
        by_cases absent : locals.reconciliationObservedAbsent = true
        · left
          simp [failing, absent, transient]
        · have opened : locals.reconcileAttempt.isSome = true := by
            refine escaping.started.resolve_right fun sent => absent ?_
            exact escaping.observed sent
          refine .inr (.inr ⟨_, if_neg absent, ?_⟩)
          intro ambiguous
          exact unsure ⟨opened, by simpa using ambiguous, by simpa using absent⟩
      refine Runs.settle resolved ?_
      refine bind (raises (acts rfl rfl ?_) fun _ => ends _) fun _ => ?_
      · rintro action ⟨⟩
        exact ⟨rfl, rfl, .inl rfl⟩
      refine bind (raises (finishStarted escaping.reconcile rfl) fun _ => ends _)
        fun _ => ?_
      refine bind (raises (finishStarted escaping.publish rfl) fun _ => ends _)
        fun _ => ?_
      exact consequence (permanentFailure about rfl ⟨rfl, .inl rfl⟩) (.refl _)
        (fun _ => ends _) fun _ => ends _

theorem recoverPublish {error : PyError} {locals : PublishLocals}
    (about : job.id = site.id) :
    site.Triple (escaped site publication error locals)
      (recoverPublish settings job publication locals error)
      (fun _ => {}) fun _ => {} := by
  unfold escaped
  cases transient : error.isTransient with
  | true =>
      rw [if_neg (by simp [PyError.isPlain, transient])]
      exact recoverTransient about transient
  | false =>
      have intransient : ¬error.isTransient = true := by simp [transient]
      cases permanent : error.isPermanent with
      | true =>
          rw [if_neg (by simp [PyError.isPlain, permanent])]
          exact recoverPermanent about transient permanent
      | false =>
          have current : error.cls ≠ .supersededRevisionError := by
            intro superseded
            simp [PyError.isPermanent, superseded] at permanent
          have passing : ¬error.isPermanent = true := by simp [permanent]
          have plain : error.isPlain = true := by
            simp [PyError.isPlain, transient, permanent]
          unfold PeReview.recoverPublish
          rw [if_pos plain, if_neg current, if_neg intransient, if_neg passing]
          exact throw (Knowledge.implies_nothing _)

/-- What a worker knows between its lookup and the outcome of its POST. -/
def posting (publication : Publication)
    (status : Option (Option PublicationStatus)) : Knowledge :=
  { states := fun state => state = .publishing
    payload := some publication.requestPayload
    status
    unposted := true
    settled := true
    silent := true
    uncommitted := true
    working := true }

/-- An error on the way to the POST, when nothing is open. -/
theorem posting_escapes {status : Option (Option PublicationStatus)}
    {error : PyError} {locals : PublishLocals}
    (absent : locals.reconciliationObservedAbsent = true)
    (started : locals.reconcileAttempt.isSome = true ∨ locals.postStarted = true)
    (reconcile : ∀ attempt ∈ locals.reconcileAttempt, attempt.job = site.id)
    (publish : ∀ attempt ∈ locals.publishAttempt, attempt.job = site.id) :
    (posting publication status).Implies (escaped site publication error locals) := by
  by_cases plain : error.isPlain = true
  · exact escaped_of_plain plain
  · rw [escaped, if_neg plain]
    intro _
    constructor
    · exact ⟨started, fun _ => absent, fun _ => absent, reconcile, publish⟩
    all_goals simp [posting, failing, lastStatus, absent]

/-- The POST: an unknown outcome is transient. -/
theorem sendReview {locals : PublishLocals} (about : job.id = site.id)
    (absent : locals.reconciliationObservedAbsent = true)
    (started : locals.postStarted = true)
    (reconcile : ∀ attempt ∈ locals.reconcileAttempt, attempt.job = site.id)
    (publish : ∀ attempt ∈ locals.publishAttempt, attempt.job = site.id) :
    site.Triple
      { posting publication (some (some .ambiguous)) with covered := true }
      (sendReview job publication.requestPayload)
      (fun _ =>
        { posting publication (some (some .ambiguous)) with uncommitted := false })
      fun error => escaped site publication error locals := by
  unfold PeReview.sendReview
  rw [about]
  refine bind (plain (Runs.postReview rfl rfl rfl rfl (fun _ same => same) rfl)) ?_
  intro number
  refine bind (plain (Runs.postOutcome rfl rfl)) ?_
  intro outcome
  refine ofExcept ?_
  have facts : ∀ error : PyError, error.cls ≠ .supersededRevisionError →
      Escaping site error locals := fun error current =>
    ⟨.inr started, fun _ => absent, fun same => absurd same current, reconcile,
      publish⟩
  cases outcome with
  | accepted response =>
      intro _
      constructor <;> simp [Knowledge.outcome, PostOutcome.toExcept, posting]
  | rejected status =>
      intro _
      constructor
      · exact facts _ (by simp [PyError.permanent])
      all_goals
        simp [Knowledge.outcome, PostOutcome.toExcept, posting, escaped, failing,
          lastStatus, absent, PyError.isPlain, PyError.isTransient,
          PyError.isPermanent, PyError.permanent]
  | unknown message retryAfterSeconds =>
      intro _
      constructor
      · exact facts _ (by simp [PyError.transient])
      all_goals
        simp [Knowledge.outcome, PostOutcome.toExcept, posting, escaped, failing,
          lastStatus, absent, PyError.isPlain, PyError.isTransient,
          PyError.transient]

theorem postPublication {attempt : AttemptId} (about : job.id = site.id)
    (mine : attempt.job = site.id) :
    site.BlockTriple (posting publication none)
      { reconcileAttempt := some attempt, reconciliationObservedAbsent := true }
      (postPublication settings job review publication attempt)
      (fun _ _ => {}) (escaped site publication) := by
  have ends : ∀ known : Knowledge, known.Implies {} := Knowledge.implies_nothing
  unfold PeReview.postPublication
  rw [about]
  refine BlockTriple.step (raises ensureCurrentRevision fun _ => ?_)
    fun publishChange => ?_
  · refine posting_escapes rfl (.inl rfl) ?_ (by simp)
    rintro started ⟨⟩
    exact mine
  refine BlockTriple.step (raises (finishAttempt mine rfl)
    fun _ => plainly_escaped) fun _ => ?_
  refine BlockTriple.modify ?_
  refine BlockTriple.step (raises (canStartAttempt about rfl fun _ => ?_)
    fun _ => plainly_escaped) fun allowed => ?_
  · exact ⟨rfl, .inl rfl⟩
  cases allowed with
  | false => exact BlockTriple.pure (ends _)
  | true =>
      simp only [Bool.not_true, Bool.false_eq_true, if_false, if_true]
      unfold PeReview.startAttempt
      rw [about]
      refine BlockTriple.step (raises (startAttempt rfl)
        fun _ => plainly_escaped) fun publishAttempt => ?_
      refine BlockTriple.assuming ?_
      rintro ⟨_, also⟩
      refine BlockTriple.strengthen ?_ (Knowledge.given_implies fun _ => .refl _)
      have publish : ∀ attempt ∈ some publishAttempt, attempt.job = site.id := by
        rintro started ⟨⟩
        exact also
      refine BlockTriple.modify ?_
      refine BlockTriple.step (raises ensureLease fun _ => plainly_escaped)
        fun _ => ?_
      refine BlockTriple.step (raises (markPublicationAmbiguous rfl ⟨rfl, rfl⟩)
        fun _ => plainly_escaped) fun _ => ?_
      refine BlockTriple.modify ?_
      refine BlockTriple.step
        (publishReviewInput (raises (publishGuard rfl) fun _ => plainly_escaped)
          (sendReview about rfl rfl (by simp) publish) (fun _ => ?_) fun _ => ?_)
        fun response => ?_
      · exact posting_escapes rfl (.inr rfl) (by simp) publish
      · exact posting_escapes rfl (.inr rfl) (by simp) publish
      refine BlockTriple.step (raises (finishAttempt also rfl)
        fun _ => plainly_escaped) fun _ => ?_
      exact BlockTriple.last (raises
        (completeCommentPublication about rfl rfl rfl (.inl rfl)
          fun _ _ same => same)
        fun _ => plainly_escaped)

/-- What a worker holds before its lookup. -/
theorem holding_escapes {error : PyError} {locals : PublishLocals}
    (unposted : publication.status ≠ .posted)
    (current : error.cls ≠ .supersededRevisionError)
    (observed : locals.reconciliationObservedAbsent = false)
    (unsent : locals.postStarted = false)
    (started : locals.reconcileAttempt.isSome = true)
    (reconcile : ∀ attempt ∈ locals.reconcileAttempt, attempt.job = site.id)
    (publish : ∀ attempt ∈ locals.publishAttempt, attempt.job = site.id) :
    (Knowledge.holding (fun state => state = .publishing) publication).Implies
      (escaped site publication error locals) := by
  by_cases plain : error.isPlain = true
  · exact escaped_of_plain plain
  · rw [escaped, if_neg plain]
    intro _
    constructor
    · exact ⟨.inl started, by simp [unsent], fun same => absurd same current,
        reconcile, publish⟩
    all_goals simp [Knowledge.holding, failing, lastStatus, observed, unposted]

theorem reconcileAndPost (about : job.id = site.id)
    (unposted : publication.status ≠ .posted) :
    site.BlockTriple
      (Knowledge.holding (fun state => state = .publishing) publication) {}
      (reconcileAndPost settings job review publication)
      (fun _ _ => {}) (escaped site publication) := by
  have ends : ∀ known : Knowledge, known.Implies {} := Knowledge.implies_nothing
  unfold PeReview.reconcileAndPost
  refine BlockTriple.step (raises (canStartAttempt about rfl (by simp))
    fun _ => plainly_escaped) fun allowed => ?_
  cases allowed with
  | false => exact BlockTriple.pure (ends _)
  | true =>
      simp only [Bool.not_true, Bool.false_eq_true, if_false, if_true]
      unfold PeReview.startAttempt
      rw [about]
      refine BlockTriple.step (raises (startAttempt rfl)
        fun _ => plainly_escaped) fun attempt => ?_
      refine BlockTriple.assuming ?_
      rintro ⟨_, mine⟩
      refine BlockTriple.strengthen ?_ (Knowledge.given_implies fun _ => .refl _)
      have reconcile : ∀ started ∈ some attempt, started.job = site.id := by
        rintro started ⟨⟩
        exact mine
      refine BlockTriple.modify ?_
      refine BlockTriple.step (raises ensureLease fun _ => plainly_escaped)
        fun _ => ?_
      refine BlockTriple.step
        (raises (hasPublishedReview about rfl rfl) fun error => ?_)
        fun alreadyPosted => ?_
      · refine Knowledge.given_implies ?_
        rintro ⟨failure, rfl⟩
        exact holding_escapes unposted failure.toError_cls rfl rfl rfl reconcile
          (by simp)
      cases alreadyPosted with
      | true =>
          refine BlockTriple.step (raises (finishAttempt mine rfl)
            fun _ => plainly_escaped) fun _ => ?_
          exact BlockTriple.last (raises
            (completeCommentPublication about rfl rfl rfl (.inl rfl)
              fun _ _ same => same)
            fun _ => plainly_escaped)
      | false =>
          refine BlockTriple.modify ?_
          refine BlockTriple.strengthen (postPublication about mine) ?_
          intro _
          constructor <;> simp [posting, Knowledge.holding, unposted]

theorem startPublication {stored : Option Publication}
    (about : job.id = site.id) :
    site.Triple
      { states
        payload := stored.map Publication.requestPayload
        status := some (stored.map Publication.status)
        unposted := decide (stored.map Publication.status ≠ some .posted)
        silent := true
        working := true }
      (startPublication settings job review stored)
      (fun publication => Knowledge.holding states publication)
      fun _ => {} := by
  have ends : ∀ known : Knowledge, known.Implies {} := Knowledge.implies_nothing
  cases stored with
  | some publication =>
      refine pure ?_
      intro _
      constructor <;> simp [Knowledge.holding]
  | none =>
      unfold PeReview.startPublication
      rw [about]
      refine bind (raises (request (Runs.done (.refl _))) fun _ => ends _)
        fun payload => ?_
      refine consequence (beginPublication rfl) (.refl _) (fun publication => ?_)
        fun _ => ends _
      intro _
      constructor <;> simp [Knowledge.holding]

theorem publishLatest {stored : Option Publication} (about : job.id = site.id)
    (publishable : job.state = .readyToPublish ∨ job.state = .publishing) :
    site.Triple
      { states := fun state => state = job.state
        payload := stored.map Publication.requestPayload
        status := some (stored.map Publication.status)
        unposted := decide (stored.map Publication.status ≠ some .posted)
        silent := true
        working := true }
      (publishLatest settings job review stored)
      (fun _ => {}) fun _ => {} := by
  have ends : ∀ known : Knowledge, known.Implies {} := Knowledge.implies_nothing
  unfold PeReview.publishLatest
  refine bind (raises (moveFrom rfl about rfl (fun _ same => same)
    (by simp)) fun _ => ends _) fun entered => ?_
  refine assuming ?_
  rintro ⟨_, same, moved⟩
  have publishing : entered.state = .publishing := by
    rcases moved with moved | ⟨elsewhere, rfl⟩
    · exact moved
    · exact publishable.resolve_left elsewhere
  rw [publishing]
  refine strengthen ?_ (Knowledge.given_implies fun _ => .refl _)
  refine bind (startPublication same) fun publication => ?_
  have completes : publication.status = .posted → ∀ response,
      site.Triple (Knowledge.holding (fun state => state = .publishing) publication)
        (PeReview.completeCommentPublication settings entered review response)
        (fun _ => {}) fun _ => {} := by
    intro posted response
    refine raises (completeCommentPublication same rfl rfl rfl ?_
      fun _ _ equal => equal) fun _ => ends _
    exact .inr (.inr ⟨_, rfl, by simp [posted]⟩)
  have posts : publication.status ≠ .posted →
      site.Triple (Knowledge.holding (fun state => state = .publishing) publication)
        (Task.tryWith {} (PeReview.reconcileAndPost settings entered review publication)
          (PeReview.recoverPublish settings entered publication))
        (fun _ => {}) fun _ => {} := fun unposted =>
    tryWith (reconcileAndPost same unposted) fun _ _ => recoverPublish same
  split
  · rename_i posted
    exact completes posted _
  · rename_i failed
    refine consequence (permanentFailure same rfl ⟨rfl, ?_⟩) (.refl _)
      (fun _ => ends _) fun _ => ends _
    exact .inr (.inr ⟨_, rfl, by simp [failed]⟩)
  · rename_i pending
    exact posts (by simp [pending])
  · rename_i ambiguous
    exact posts (by simp [ambiguous])

/-- A pass over a job that is ready to publish or publishing. -/
theorem processPublish (about : job.id = site.id)
    (publishable : job.state = .readyToPublish ∨ job.state = .publishing) :
    site.Triple
      { states := fun state => state = job.state, silent := true, working := true }
      (processPublish settings job) (fun _ => {}) fun _ => {} := by
  have ends : ∀ known : Knowledge, known.Implies {} := Knowledge.implies_nothing
  unfold PeReview.processPublish
  rw [about]
  refine bind (raises (loadReviewResult rfl) fun _ => ends _) ?_
  intro stored
  cases stored with
  | none =>
      -- A live worker would have found the durable result.
      refine consequence (permanentFailure about rfl ⟨rfl, .inr (.inl ?_)⟩)
        (.refl _) (fun _ => ends _) fun _ => ends _
      rintro state ⟨_, absent⟩
      exact (absent rfl).2
  | some review =>
      refine strengthen ?_ (Knowledge.within_implies _)
      refine bind (raises (publicationForJob rfl) fun _ => ends _) ?_
      intro publication
      refine bind (raises (reads rfl rfl rfl) fun _ => ends _) ?_
      intro latest
      cases latest with
      | true => exact publishLatest about publishable
      | false =>
          exact resolveSupersededPublish about fun publishing state same =>
            same.trans publishing

end Publications

end Site.Triple

end PeReview
