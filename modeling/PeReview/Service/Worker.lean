import PeReview.Service.Publish
import PeReview.Service.Review

/-!
# One claimed job

`_process_claimed` of `ReviewWorker`, as `_slot` runs it: whatever is raised ends
the work on the job, and the slot goes on to its next claim.
-/

namespace PeReview

open PeReview.Process

/-- `ReviewWorker._process_claimed`. -/
def processClaimed (worker : ReviewWorker) (job : JobRecord) : Task Unit :=
  match job.state with
  | .received | .fetching | .reviewing | .validating =>
      processReview worker job
  | .readyToPublish | .publishing => processPublish worker.settings job
  | .done | .superseded | .skippedScope | .failedPermanent => pure ()
  | .retryWait | .failedTransient =>
      permanentFailure job
        (.permanent ("unsupported claimed state " ++ job.state.value))

/-- What `_slot` runs after a claim. -/
def runClaimed (worker : ReviewWorker) (job : JobRecord) :
    Program Call Answer Unit :=
  (processClaimed worker job).run.bind fun _ => .done ()

end PeReview
