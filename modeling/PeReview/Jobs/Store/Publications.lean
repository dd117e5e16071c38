import Mathlib.Data.List.Dedup
import Mathlib.Data.List.Sort
import PeReview.Jobs.Store.Transitions

/-!
# Publications

`begin_publication`, `complete_publication`,
`complete_publication_and_mark_done`, `mark_publication_ambiguous`,
`mark_publication_failed`, `publication_for_job` and `is_latest_known_patchset`
of `JobStore`.
-/

namespace PeReview

open PeReview.Data

namespace Store

/-- `publication_fingerprint`. -/
def publicationFingerprint (hashes : Hashes) (job : Job)
    (payload : ReviewInput) : String :=
  hashes.publication
    { project := job.project
      changeNumber := job.changeNumber
      revisionSha := job.revisionSha
      reviewPolicyVersion := job.reviewPolicyVersion
      payload }

/-- `sorted(set(finding_fingerprints))`. -/
def sortedSet (values : List String) : List String :=
  values.dedup.insertionSort (· ≤ ·)

/-- `JobStore.begin_publication`. -/
def beginPublication (store : Store) (hashes : Hashes) (now : Time) (id : JobId)
    (worker : WorkerId) (requestPayload : ReviewInput)
    (findingFingerprints : List String) :
    Except PyError (Store × Publication) :=
  store.onJob id fun job => do
    job.requireLiveLease id worker now
    Except.require (job.state = .publishing)
      (.runtime (s!"job {id} cannot begin publication from state " ++
        job.state.value))
    let fingerprint := publicationFingerprint hashes job requestPayload
    match job.publication with
    | none =>
        let publication : Publication :=
          { publicationFingerprint := fingerprint
            status := .pending
            findingFingerprints := sortedSet findingFingerprints
            requestPayload }
        .ok ({ job with publication := some publication }, publication)
    | some publication =>
        Except.require (publication.publicationFingerprint = fingerprint)
          (.runtime "publication payload changed after durable publication began")
        .ok (job, publication)

/-- An update of the publication of one job; `rowcount` tells whether there was
one. -/
def updatePublication (store : Store) (publication : JobId)
    (change : Publication → Publication) : Except PyError (Store × Unit) :=
  match store.jobs[publication]? with
  | none => .error (.key publication)
  | some job =>
      match job.publication with
      | none => .error (.key publication)
      | some row =>
          .ok
            (store.setJob publication { job with publication := some (change row) },
              ())

/-- `JobStore.complete_publication`. -/
def completePublication (store : Store) (now : Time) (publication : JobId)
    (gerritResponse : Option GerritResponse := none) :
    Except PyError (Store × Unit) :=
  store.updatePublication publication fun row =>
    { row with
      status := .posted
      gerritResponse
      postedAt := some now
      lastError := none }

/-- The publication row once Gerrit's side effect is recorded. -/
def postedPublication (now : Time) (gerritResponse : Option GerritResponse)
    (row : Publication) : Publication :=
  { row with
    status := .posted
    gerritResponse :=
      if row.postedAt.isNone then gerritResponse else row.gerritResponse
    postedAt := if row.postedAt.isNone then some now else row.postedAt
    lastError := none }

/-- `JobStore.complete_publication_and_mark_done`. -/
def completePublicationAndMarkDone (store : Store) (now : Time)
    (publication id : JobId) (worker : WorkerId)
    (gerritResponse : Option GerritResponse := none)
    (deferDone : Bool := false) : Except PyError (Store × JobRecord) :=
  store.onJob id fun job => do
    Except.require (publication = id)
      (.runtime "publication belongs to a different review job")
    match job.publication with
    | none => .error (.key publication)
    | some row =>
        if job.state = .done && row.status = .posted then
          .ok (job, job.record id)
        else
          Except.require (job.state = .publishing || job.state = .superseded)
            (.runtime (s!"cannot finalize Gerrit publication for job {id} from " ++
              job.state.value))
          Except.require
            (job.state ≠ .publishing || job.leaseOwner.isNone ||
              job.leaseOwner = some worker)
            (.runtime (s!"job {id} publish lease is owned by " ++
              job.leaseOwner.getD "" ++ s!", not {worker}"))
          let posted :=
            { job with
              publication := some (postedPublication now gerritResponse row)
              retryState := none
              lastErrorClass := none
              lastError := none }
          if deferDone then
            job.requireLiveLease id worker now
            Except.require (job.state = .publishing)
              (.runtime "deferred publication completion requires PUBLISHING")
            let job := { posted with state := .publishing }
            .ok (job, job.record id)
          else
            let job := { posted.release with state := .done }
            .ok (job, job.record id)

/-- `JobStore.mark_publication_ambiguous`: neither the status nor a lease is
looked at. -/
def markPublicationAmbiguous (store : Store) (publication : JobId)
    (error : String) : Except PyError (Store × Unit) :=
  store.updatePublication publication fun row =>
    { row with status := .ambiguous, lastError := some error }

/-- `JobStore.mark_publication_failed`: neither the status nor a lease is looked
at. -/
def markPublicationFailed (store : Store) (publication : JobId)
    (error : String) : Except PyError (Store × Unit) :=
  store.updatePublication publication fun row =>
    { row with status := .failed, lastError := some error }

/-- `JobStore.publication_for_job`. -/
def publicationForJob (store : Store) (id : JobId) : Option Publication :=
  (store.jobs[id]?).bind Job.publication

/-- `JobStore.is_latest_known_patchset`. -/
def isLatestKnownPatchset (store : Store) (id : JobId) : Bool :=
  match store.jobs[id]? with
  | none => false
  | some job => job.state ≠ .superseded && !store.hasNewer job

end Store

end PeReview
