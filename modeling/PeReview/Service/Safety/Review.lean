import PeReview.Service.Review
import PeReview.Service.Safety.Publish

/-!
# What a review pass keeps

No publication of the job exists during a review pass, so that whatever goes
wrong in it may close the job or park it where it is.
-/

namespace PeReview

open PeReview.Process

namespace Knowledge

/-- What a worker knows that reviews a job in one state. -/
def reviewing (state : JobState) : Knowledge :=
  { states := fun current => current = state, silent := true }

/-- What it still knows when it has lost track of the state. -/
def unpublished : Knowledge :=
  { states := fun state => state ≠ .publishing, silent := true }

/-- What it knows after an error: only errors of the store and of the lease make
it lose track. -/
def strayed (state : JobState) (error : PyError) : Knowledge :=
  if error.isPlain then unpublished else reviewing state

theorem unpublished_resolved : unpublished.Resolved :=
  .inr (.inl fun _ elsewhere => elsewhere)

theorem reviewing_resolved {state : JobState} (elsewhere : state ≠ .publishing) :
    (reviewing state).Resolved :=
  .inr (.inl fun current same => by rw [same]; exact elsewhere)

theorem reviewing_implies {state : JobState} (elsewhere : state ≠ .publishing) :
    (reviewing state).Implies unpublished := by
  intro _
  constructor <;> simp [unpublished, reviewing, elsewhere]

theorem strayed_implies {state : JobState} {error : PyError}
    (elsewhere : state ≠ .publishing) :
    (strayed state error).Implies unpublished := by
  unfold strayed
  split
  · exact .refl _
  · exact reviewing_implies elsewhere

/-- A plain error of something that keeps the job unpublished. -/
theorem plainly_strayed {known : Knowledge} {state : JobState} {error : PyError}
    (implies : known.Implies unpublished) :
    (known.plainly error).Implies (strayed state error) := by
  refine plainly_implies fun plain => ?_
  rw [strayed, if_pos plain]
  exact implies

end Knowledge

namespace Site.Triple

variable {site : Site} {worker : ReviewWorker} {job : JobRecord}
  {review : ReviewResult} {history : FindingHistory}

open Knowledge (reviewing unpublished strayed reviewing_implies strayed_implies
  plainly_strayed reviewing_resolved unpublished_resolved)

theorem enterValidating (about : job.id = site.id)
    (elsewhere : job.state ≠ .publishing) :
    site.Triple (reviewing job.state) (enterValidating job)
      (fun entered : JobRecord =>
        (reviewing .validating).given (entered.id = site.id))
      unpublished.plainly := by
  by_cases validating : job.state = .validating
  · have entering : PeReview.enterValidating job = Pure.pure job :=
      if_pos validating
    rw [entering, validating]
    exact pure (Knowledge.implies_given _ about)
  by_cases here : job.state = .reviewing
  · have entering : PeReview.enterValidating job =
        Task.store (.transition site.id .validating false) := by
      rw [← about]
      exact (if_neg validating).trans (if_pos here)
    rw [entering]
    refine consequence (transition rfl ⟨rfl, rfl, ?_⟩) (.refl _)
      (fun entered => ?_) fun error => ?_
    · intro state same
      exact .inr (.inr (.inl ⟨same.trans here, rfl⟩))
    · refine Knowledge.given_implies ?_
      rintro ⟨mine, _⟩ _
      constructor <;> simp [reviewing, Knowledge.given, mine]
    · refine Knowledge.Implies.plainly ?_ error
      intro _
      constructor <;> simp [Knowledge.after, reviewing, unpublished, elsewhere]
  · have entering : PeReview.enterValidating job =
        MonadExcept.throw
          (.runtime ("completed review cannot be promoted from " ++
            job.state.value)) :=
      (if_neg validating).trans (if_neg here)
    rw [entering]
    exact throw ((reviewing_implies elsewhere).trans
      (Knowledge.implies_given _ rfl))

/-- Promotion raises plain errors only. -/
theorem promoteReviewResult (about : job.id = site.id)
    (elsewhere : job.state ≠ .publishing) :
    site.Triple (reviewing job.state)
      (promoteReviewResult worker job review history)
      (fun _ => unpublished) unpublished.plainly := by
  unfold PeReview.promoteReviewResult
  refine bind (raises reviewPolicy (reviewing_implies elsewhere).plainly)
    fun policy => ?_
  dsimp only
  refine bind (raises ensureLease
    (reviewing_implies elsewhere).plainly) fun _ => ?_
  refine bind (enterValidating about elsewhere) fun entered => ?_
  refine assuming ?_
  rintro ⟨_, mine⟩
  refine strengthen ?_ (Knowledge.given_implies fun _ => .refl _)
  have kept : (reviewing .validating).Implies unpublished :=
    reviewing_implies (by simp)
  refine bind (raises ensureLease kept.plainly) fun _ => ?_
  refine bind (raises (acts mine rfl ?_) ?_) fun _ => pure ?_
  · rintro action ⟨⟩
    exact ⟨rfl, fun state same => same⟩
  · exact Knowledge.Implies.plainly kept.released
  · exact kept.released

/-- The engine keeps what is known: it only saves progress and asks the model. -/
theorem runEngine {Value : Type} {attempt : Option AttemptId} {known : Knowledge}
    {program : EngineProgram Value} (uncovered : known.covered = false)
    (mine : ∀ started ∈ attempt, started.job = site.id) :
    site.Triple known (runEngine site.id attempt program) (fun _ => known)
      fun _ => known := by
  have stored : ∀ call : StoreCall, call.job = site.id → call.action = none →
      site.Runs known (Program.perform (Call.store call)) fun _ => known := by
    intro call about quiet
    refine Runs.weaken (reads about uncovered quiet) ?_
    rintro (_ | _)
    · exact Knowledge.given_implies fun _ => .refl known
    · exact .refl known
  have saves : ∀ (context : String) (call : StoreCall), call.job = site.id →
      call.action = none →
        site.Runs known (backendCall context call) fun _ => known := by
    intro context call about quiet
    refine Runs.bind (stored call about quiet) ?_
    rintro (_ | _)
    · exact Runs.done (.refl known)
    · exact Runs.done (.refl known)
  refine request (Runs.handle ?_ program)
  intro call
  cases call with
  | load inputKey => exact saves _ _ rfl rfl
  | save progress => exact saves _ _ rfl rfl
  | recordInvocation invocation => exact saves _ _ rfl rfl
  | totals => exact saves _ _ rfl rfl
  | legacy => exact stored _ rfl rfl
  | toolTrace event =>
      cases attempt with
      | none => exact Runs.done (.refl known)
      | some attempt =>
          exact Runs.bind (stored _ (mine attempt rfl) rfl)
            fun _ => Runs.done (.refl known)
  | ask request => exact Runs.neutral rfl

/-- Reading the guidance files leaves everything as it is. -/
theorem loadPolicy {settings : Settings} {baseRevisionSha : Option String}
    {known : Knowledge} {workspace : RepositoryWorkspace} :
    site.Triple known
      (loadPolicy settings baseRevisionSha (readBaselineText workspace))
      (fun _ => known) fun _ => known := by
  have files : ∀ (baseRevisionSha : String) (paths sections : List String)
      (used : Nat), site.Triple known
        (loadPolicyFiles settings baseRevisionSha (readBaselineText workspace)
          paths sections used) (fun _ => known) fun _ => known := by
    intro baseRevisionSha paths
    induction paths with
    | nil =>
        intro sections used
        exact pure (.refl known)
    | cons path rest inductionHypothesis =>
        intro sections used
        unfold loadPolicyFiles
        split
        · exact pure (.refl known)
        · refine bind (request (Runs.neutral rfl)) fun text => ?_
          cases text with
          | none => exact inductionHypothesis _ _
          | some text =>
              dsimp only
              split
              · exact inductionHypothesis _ _
              · exact inductionHypothesis _ _
  unfold PeReview.loadPolicy
  split
  · exact pure (.refl known)
  · exact pure (.refl known)
  · exact bind (files _ _ _ _) fun _ => pure (.refl known)

section Passes

variable {context : ReviewContext} {engine : ReviewEngine}

theorem recoverCompletedReview (about : job.id = site.id)
    (elsewhere : job.state ≠ .publishing) :
    site.Triple (reviewing job.state)
      (recoverCompletedReview worker job context history engine)
      (fun found => if found then unpublished else reviewing job.state)
      (strayed job.state) := by
  unfold PeReview.recoverCompletedReview
  rw [about]
  refine bind (raises (runEngine rfl (by simp)) ?_) fun recovered => ?_
  · intro error
    unfold strayed
    split
    · exact reviewing_implies elsewhere
    · exact .refl _
  cases recovered with
  | none => exact pure (.refl _)
  | some review =>
      exact bind (raises (promoteReviewResult about elsewhere)
        fun _ => plainly_strayed (.refl _)) fun _ => pure (.refl _)

/-- An error that is not plain leaves the worker where it was. -/
theorem strayed_of_transient {state : JobState} {error : PyError}
    (transient : error.isTransient = true) :
    strayed state error = reviewing state := by
  rw [strayed, if_neg (by simp [PyError.isPlain, transient])]

theorem probeCompletedReview (about : job.id = site.id)
    (elsewhere : job.state ≠ .publishing) :
    site.Triple (reviewing job.state)
      (probeCompletedReview worker job context history engine)
      (fun isOver => if isOver then unpublished else reviewing job.state)
      (strayed job.state) := by
  have kept : (reviewing job.state).released.Implies unpublished := by
    intro _
    constructor <;> simp [reviewing, unpublished, Knowledge.released, elsewhere]
  unfold PeReview.probeCompletedReview
  rw [about]
  refine tryCatch (recoverCompletedReview about elsewhere) fun error => ?_
  split
  · rename_i transient
    rw [strayed_of_transient transient]
    refine bind (raises (scheduleRetry rfl rfl (by simp) fun _ => ?_)
      fun _ => plainly_strayed kept) fun _ => pure kept
    exact reviewing_resolved elsewhere
  · exact throw (.refl _)

theorem attemptReview (about : job.id = site.id)
    (elsewhere : job.state ≠ .publishing) :
    site.Triple (reviewing job.state)
      (attemptReview worker job context history engine)
      (fun _ => unpublished) fun _ => unpublished := by
  have lost : (reviewing job.state).Implies unpublished :=
    reviewing_implies elsewhere
  have released : (reviewing job.state).released.Implies unpublished := by
    intro _
    constructor <;> simp [reviewing, unpublished, Knowledge.released, elsewhere]
  have dropped : ∀ {known : Knowledge} {error : PyError},
      known.Implies unpublished → (known.plainly error).Implies unpublished :=
    fun implies => Knowledge.plainly_implies fun _ => implies
  unfold PeReview.attemptReview
  refine bind (raises (canStartAttempt about rfl
    fun _ => ⟨rfl, reviewing_resolved elsewhere⟩) fun _ => dropped released)
    fun allowed => ?_
  cases allowed with
  | false => exact pure released
  | true =>
      simp only [Bool.not_true, Bool.false_eq_true, if_false, if_true]
      unfold PeReview.startAttempt
      rw [about]
      refine bind (raises (startAttempt rfl) fun _ => dropped lost)
        fun attempt => ?_
      refine assuming ?_
      rintro ⟨_, mine⟩
      refine strengthen ?_ (Knowledge.given_implies fun _ => .refl _)
      have reviews : site.Triple (reviewing job.state)
          (PeReview.runEngine site.id (some attempt) (engine.review context) >>=
            fun review =>
              PeReview.promoteReviewResult worker job review history >>=
                fun _ => PeReview.finishAttempt attempt true)
          (fun _ => unpublished) (strayed job.state) := by
        refine bind (raises (runEngine rfl ?_) fun error => ?_) fun review => ?_
        · rintro started ⟨⟩
          exact mine
        · unfold strayed
          split
          · exact lost
          · exact .refl _
        refine bind (raises (promoteReviewResult about elsewhere)
          fun _ => plainly_strayed (.refl _)) fun _ => ?_
        exact raises (finishAttempt mine rfl) fun _ => plainly_strayed (.refl _)
      refine tryCatch reviews fun error => ?_
      split
      · rename_i transient
        rw [strayed_of_transient transient]
        refine bind (raises (finishAttemptIfOpen mine rfl) fun _ => dropped lost)
          fun _ => ?_
        refine bind (raises (probeCompletedReview about elsewhere)
          fun _ => strayed_implies elsewhere) fun isOver => ?_
        cases isOver with
        | true => exact pure (.refl _)
        | false => exact throw lost
      · refine strengthen ?_ (strayed_implies elsewhere)
        exact bind (raises (finishAttemptIfOpen mine rfl) fun _ => dropped (.refl _))
          fun _ => throw (.refl _)

end Passes

theorem reviewWorkspace {change : GerritChange}
    {workspace : RepositoryWorkspace} (about : job.id = site.id)
    (elsewhere : job.state ≠ .publishing) :
    site.Triple (reviewing job.state)
      (reviewWorkspace worker job change workspace)
      (fun _ => unpublished) fun _ => unpublished := by
  have lost : (reviewing job.state).Implies unpublished :=
    reviewing_implies elsewhere
  unfold PeReview.reviewWorkspace
  refine bind (raises (reads about rfl rfl)
    fun _ => Knowledge.plainly_implies fun _ => lost) fun policy => ?_
  dsimp only
  refine bind (raises loadPolicy fun _ => lost) fun policyText => ?_
  refine bind (raises (reads about rfl rfl)
    fun _ => Knowledge.plainly_implies fun _ => lost) fun history => ?_
  refine bind (raises (@probeCompletedReview site worker
    { job with projectReviewPolicy := some (.bound policy) } history _ _ about
    elsewhere) fun _ => strayed_implies elsewhere) fun isOver => ?_
  cases isOver with
  | true => exact pure (.refl _)
  | false => exact @attemptReview site worker _ history _ _ about elsewhere

def Early (stage : AttemptStage) : Prop :=
  stage = .fetch ∨ stage = .review

/-- The clean-up of a workspace may replace an error by its own. -/
theorem withWorkspace {Value : Type} {ref : Option String}
    {body : RepositoryWorkspace → Task.Block AttemptStage Value}
    {known : Knowledge} {stage : AttemptStage} {after : AttemptStage → Knowledge}
    (opens : known.Implies (after stage))
    (works : ∀ workspace, site.BlockTriple known stage (body workspace)
      (fun _ => after) fun _ => after) :
    site.BlockTriple known stage (withWorkspace job ref body)
      (fun _ => after) fun _ => after := by
  unfold PeReview.withWorkspace
  refine BlockTriple.step (raises (request (Runs.neutral rfl)) fun _ => opens)
    fun workspace => ?_
  refine Runs.bind (works workspace) ?_
  rintro ⟨result, final⟩
  refine Runs.bind (Runs.neutral rfl) ?_
  rintro (_ | _)
  · cases result with
    | ok value => exact Runs.done (.refl _)
    | error error => exact Runs.done (.refl _)
  · cases result with
    | ok value => exact Runs.done (.refl _)
    | error error => exact Runs.done (.refl _)

theorem fetchAndReview {attempt : AttemptId} (about : job.id = site.id)
    (mine : attempt.job = site.id) (elsewhere : job.state ≠ .publishing) :
    site.BlockTriple (reviewing job.state) .fetch
      (fetchAndReview worker job attempt)
      (fun _ stage => unpublished.given (Early stage))
      fun _ stage => unpublished.given (Early stage) := by
  have lost : ∀ stage, Early stage →
      (reviewing job.state).Implies (unpublished.given (Early stage)) :=
    fun stage early => (reviewing_implies elsewhere).trans
      (Knowledge.implies_given _ early)
  unfold PeReview.fetchAndReview
  refine BlockTriple.step (raises ensureCurrentRevision
    fun _ => lost _ (.inl rfl)) fun change => ?_
  dsimp only
  refine withWorkspace (lost _ (.inl rfl)) fun workspace => ?_
  refine BlockTriple.step (raises ensureLease
    fun _ => Knowledge.plainly_implies fun _ => lost _ (.inl rfl)) fun _ => ?_
  refine BlockTriple.step (raises (finishAttempt mine rfl)
    fun _ => Knowledge.plainly_implies fun _ => lost _ (.inl rfl)) fun _ => ?_
  refine BlockTriple.step (raises (moveFrom rfl about rfl (fun _ same => same)
    (by simp)) fun error => ?_) fun moved => ?_
  · refine Knowledge.plainly_implies fun _ => ?_
    intro _
    constructor
    · exact ⟨True.intro, .inl rfl⟩
    all_goals
      simp [Knowledge.after, reviewing, unpublished, Knowledge.given, elsewhere]
  refine BlockTriple.assuming ?_
  rintro ⟨_, same, reached⟩
  have stillElsewhere : moved.state ≠ .publishing := by
    rcases reached with reached | ⟨_, rfl⟩
    · simp [reached]
    · exact elsewhere
  refine BlockTriple.strengthen ?_ (Knowledge.given_implies fun _ => .refl _)
  refine BlockTriple.set ?_
  exact BlockTriple.last (consequence (reviewWorkspace same stillElsewhere)
    (.refl _) (fun _ => Knowledge.implies_given _ (.inr rfl))
    fun _ => Knowledge.implies_given _ (.inr rfl))

theorem recoverReview {attempt : AttemptId} {stage : AttemptStage}
    {error : PyError} (about : job.id = site.id) (mine : attempt.job = site.id)
    (early : Early stage) :
    site.Triple unpublished (recoverReview worker job attempt stage error)
      (fun _ => {}) fun _ => {} := by
  have ends : ∀ known : Knowledge, known.Implies {} := Knowledge.implies_nothing
  unfold PeReview.recoverReview
  rw [about]
  split
  · refine bind (raises (finishAttemptIfOpen mine rfl) fun _ => ends _)
      fun _ => ?_
    exact bind (raises (markSuperseded rfl ⟨rfl, unpublished_resolved⟩)
      fun _ => ends _) fun _ => pure (ends _)
  · split
    · refine bind (raises (finishAttemptIfOpen mine rfl) fun _ => ends _)
        fun _ => ?_
      refine consequence (scheduleRetry rfl rfl ?_ fun _ => unpublished_resolved)
        (.refl _) (fun _ => ends _) fun _ => ends _
      rintro rfl
      rcases early with impossible | impossible <;> cases impossible
    · split
      · refine bind (raises (finishAttemptIfOpen mine rfl) fun _ => ends _)
          fun _ => ?_
        exact consequence (permanentFailure about rfl ⟨rfl, unpublished_resolved⟩)
          (.refl _) (fun _ => ends _) fun _ => ends _
      · exact throw (ends _)

/-- A pass over a job that is to be reviewed. -/
theorem processReview (about : job.id = site.id)
    (elsewhere : job.state ≠ .publishing) :
    site.Triple (reviewing job.state) (processReview worker job)
      (fun _ => {}) fun _ => {} := by
  have ends : ∀ known : Knowledge, known.Implies {} := Knowledge.implies_nothing
  unfold PeReview.processReview
  refine bind (raises (moveFrom rfl about rfl (fun _ same => same) (by simp))
    fun _ => ends _) fun moved => ?_
  refine assuming ?_
  rintro ⟨_, same, reached⟩
  have stillElsewhere : moved.state ≠ .publishing := by
    rcases reached with reached | ⟨_, rfl⟩
    · simp [reached]
    · exact elsewhere
  refine strengthen ?_ (Knowledge.given_implies fun _ => .refl _)
  refine bind (raises (canStartAttempt same rfl
    fun _ => ⟨rfl, reviewing_resolved stillElsewhere⟩) fun _ => ends _)
    fun allowed => ?_
  cases allowed with
  | false => exact pure (ends _)
  | true =>
      simp only [Bool.not_true, Bool.false_eq_true, if_false, if_true]
      unfold PeReview.startAttempt
      rw [same]
      refine bind (raises (startAttempt rfl) fun _ => ends _) fun attempt => ?_
      refine assuming ?_
      rintro ⟨_, mine⟩
      refine strengthen ?_ (Knowledge.given_implies fun _ => .refl _)
      have inside : site.BlockTriple (reviewing moved.state) .fetch
          (PeReview.fetchAndReview worker moved attempt) (fun _ _ => {})
          fun _ stage => unpublished.given (Early stage) := by
        refine Runs.weaken (fetchAndReview same mine stillElsewhere) ?_
        rintro ⟨_ | _, _⟩
        · exact .refl _
        · exact ends _
      refine tryWith inside fun error stage => assuming ?_
      rintro ⟨_, early⟩
      exact strengthen (recoverReview same mine early)
        (Knowledge.given_implies fun _ => .refl _)

end Site.Triple

end PeReview
