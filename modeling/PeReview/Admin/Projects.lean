import PeReview.Jobs.Store.Basic

/-!
# Admin scope changes

`upsert_project`, `set_project_enabled`, `set_project_review_start_mode`,
`set_project_review_policy` and `_skip_pre_cutoff_jobs` of `admin/store.py`.
-/

namespace PeReview

open PeReview.Data

namespace Store

/-- The `WHERE` clause of `_skip_pre_cutoff_jobs`: open jobs from before the
cutoff that nobody is working on and that have no publication intent. -/
def isPreCutoff (now : Time) (project : String) (cutoff : Time) (job : Job) :
    Bool :=
  job.project = project && job.createdAt < cutoff && !job.state.isTerminal &&
    (job.leaseOwner.isNone ||
      match job.leaseExpiresAt with
      | none => true
      | some expires => expires ≤ now) &&
    job.publication.isNone

/-- What `_skip_pre_cutoff_jobs` writes. -/
def skippedJob (job : Job) : Job :=
  { job with
    state := .skippedScope
    retryState := none
    leaseOwner := none
    leaseExpiresAt := none
    lastErrorClass := some "ReviewScopeChanged"
    lastError :=
      some "Skipped because project review scope changed to FROM_NOW." }

/-- `_skip_pre_cutoff_jobs`. -/
def skipPreCutoffJobs (store : Store) (now : Time) (project : String)
    (cutoff : Time) : Store :=
  { store with
    jobs :=
      store.jobs.map fun job =>
        if isPreCutoff now project cutoff job then skippedJob job else job }

def setProject (store : Store) (row : ManagedProject) : Store :=
  { store with
    projects :=
      store.projects.map fun other =>
        if other.project = row.project then row else other }

def cutoffFor (now : Time) : ProjectReviewStartMode → Option Time
  | .fromNow => some now
  | .includeOpen => none

def skipBefore (store : Store) (now : Time) (project : String) :
    Option Time → Store
  | none => store
  | some cutoff => store.skipPreCutoffJobs now project cutoff

/-- `_validate_project_policy`; the flag is a `bool` by its type. -/
def validateProjectPolicy (language : String) : Except PyError Unit :=
  Except.require (["INHERIT", "ko-KR", "en-US"].contains language)
    (.value "Review language must be INHERIT, ko-KR or en-US")

/-- `ControlStore.upsert_project`. -/
def upsertProject (store : Store) (now : Time) (project : String)
    (enabled : Bool := true)
    (reviewStartMode : ProjectReviewStartMode := .fromNow)
    (reviewLanguage : Option String := none)
    (autoCodeReview : Option Bool := none) :
    Except PyError (Store × ManagedProject) := do
  validateProjectPolicy (reviewLanguage.getD "INHERIT")
  let normalized := pyStrip project
  Except.require (normalized ≠ "" && normalized.length ≤ 512)
    (.value "project must be between 1 and 512 characters")
  Except.require (normalized.toList.all fun char => 32 ≤ char.toNat)
    (.value "project cannot contain control characters")
  let reviewStartAt := cutoffFor now reviewStartMode
  let existing := store.projects.find? fun row => row.project = normalized
  let changesPolicy := reviewLanguage.isSome || autoCodeReview.isSome
  let row : ManagedProject :=
    match existing with
    | some row =>
        { row with
          enabled
          reviewStartMode
          reviewStartAt
          reviewLanguage := reviewLanguage.getD row.reviewLanguage
          autoCodeReview := autoCodeReview.getD row.autoCodeReview
          policyGeneration :=
            if changesPolicy then row.policyGeneration + 1
            else row.policyGeneration
          updatedAt := now }
    | none =>
        { project := normalized
          enabled
          reviewStartMode
          reviewStartAt
          reviewLanguage := reviewLanguage.getD "INHERIT"
          autoCodeReview := autoCodeReview.getD false
          createdAt := now
          updatedAt := now }
  let store :=
    if existing.isSome then store.setProject row
    else { store with projects := store.projects ++ [row] }
  .ok (store.skipBefore now normalized reviewStartAt, row)

/-- `ControlStore.set_project_enabled`. -/
def setProjectEnabled (store : Store) (now : Time) (project : String)
    (enabled : Bool) : Except PyError (Store × ManagedProject) :=
  match store.projects.find? fun row => row.project = project with
  | none => .error { cls := .keyError, message := project }
  | some row =>
      if enabled && row.reviewStartMode = .fromNow then
        let row := { row with enabled, reviewStartAt := some now, updatedAt := now }
        .ok ((store.setProject row).skipPreCutoffJobs now row.project now, row)
      else
        let row := { row with enabled, updatedAt := now }
        .ok (store.setProject row, row)

/-- `ControlStore.set_project_review_start_mode`. -/
def setProjectReviewStartMode (store : Store) (now : Time) (project : String)
    (mode : ProjectReviewStartMode) : Except PyError (Store × ManagedProject) :=
  match store.projects.find? fun row => row.project = project with
  | none => .error { cls := .keyError, message := project }
  | some row =>
      let reviewStartAt := cutoffFor now mode
      let row := { row with reviewStartMode := mode, reviewStartAt, updatedAt := now }
      .ok ((store.setProject row).skipBefore now row.project reviewStartAt, row)

/-- `ControlStore.set_project_review_policy`. -/
def setProjectReviewPolicy (store : Store) (now : Time) (project : String)
    (reviewLanguage : String) (autoCodeReview : Bool) (expectedGeneration : Nat) :
    Except PyError (Store × ManagedProject) := do
  validateProjectPolicy reviewLanguage
  match store.projects.find? fun row => row.project = project with
  | none => .error { cls := .keyError, message := project }
  | some row =>
      if row.policyGeneration ≠ expectedGeneration then
        .error
          (.runtime "Project policy changed in another session; reload and retry.")
      else if row.reviewLanguage = reviewLanguage ∧ row.autoCodeReview = autoCodeReview then
        .ok (store, row)
      else
        let row :=
          { row with
            reviewLanguage
            autoCodeReview
            policyGeneration := row.policyGeneration + 1
            updatedAt := now }
        .ok (store.setProject row, row)

end Store

end PeReview
