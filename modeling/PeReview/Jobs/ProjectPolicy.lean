import PeReview.Jobs.Store.Basic

/-!
# Binding the project policy

`bind_project_review_policy` of `jobs/project_policy.py`.
-/

namespace PeReview

open PeReview.Data

namespace Store

/-- The policy a job without one is bound to. -/
def freshPolicy (now : Time) (defaultLanguage : String) (legacy : Bool)
    (project : Option ManagedProject) : ProjectReviewPolicy :=
  let language :=
    match project with
    | some row => if legacy then "INHERIT" else row.reviewLanguage
    | none => "INHERIT"
  { reviewLanguage := language
    outputLanguage := if language = "INHERIT" then defaultLanguage else language
    autoCodeReview := project.any fun row => row.autoCodeReview && !legacy
    generation := (project.map ManagedProject.policyGeneration).getD 0
    source :=
      if legacy then "legacy"
      else if project.isSome then "project" else "default"
    boundAt := now }

/-- The policy of a job that had started before the feature. -/
def legacyPolicy (now : Time) (defaultLanguage : String) : ProjectReviewPolicy :=
  { reviewLanguage := "INHERIT"
    outputLanguage := defaultLanguage
    autoCodeReview := false
    generation := 0
    source := "legacy"
    boundAt := now }

/-- `bind_project_review_policy`. -/
def bindProjectReviewPolicy (store : Store) (now : Time) (id : JobId)
    (worker : WorkerId) (defaultLanguage : String) :
    Except PyError (Store × ProjectReviewPolicy) :=
  store.onJob id fun job => do
    job.requireLiveLease id worker now
    match job.projectReviewPolicy with
    | some .legacyPreFeature =>
        let policy := legacyPolicy now defaultLanguage
        .ok ({ job with projectReviewPolicy := some (.bound policy) }, policy)
    | some (.bound policy) => .ok (job, policy)
    | none =>
        let legacy := job.attempts.any fun attempt => attempt.stage = .review
        let project := store.projects.find? fun row => row.project = job.project
        let policy := freshPolicy now defaultLanguage legacy project
        .ok ({ job with projectReviewPolicy := some (.bound policy) }, policy)

end Store

end PeReview
