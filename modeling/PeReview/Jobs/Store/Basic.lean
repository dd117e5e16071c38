import PeReview.Data.Select
import PeReview.Jobs.Models
import PeReview.Jobs.StateMachine

/-!
# Access to job rows

A transaction on one job locks its row, works on it and commits, or raises and
leaves the store as it was.  `_require_live_lease` is the ownership test most of
them begin with.
-/

namespace PeReview

open PeReview.Data

/-- The identity a publication fingerprint is computed from. -/
structure PublicationKey where
  project : String
  changeNumber : Int
  revisionSha : String
  reviewPolicyVersion : String
  payload : ReviewInput
  deriving DecidableEq, Repr

structure Hashes extends Digest where
  publication : PublicationKey → String

/-- Hashes that tell nothing apart, for concrete runs. -/
def Hashes.constant : Hashes :=
  { normalizeText := id
    fingerprint := fun _ => ""
    semanticId := fun _ => ""
    publication := fun _ => "" }

namespace Job

/-- The job is leased by a worker whose lease has not expired. -/
def live (worker : WorkerId) (now : Time) (job : Job) : Bool :=
  job.leaseOwner = some worker &&
    match job.leaseExpiresAt with
    | none => false
    | some expires => now < expires

/-- `_require_live_lease`. -/
def requireLiveLease (id : JobId) (worker : WorkerId) (now : Time)
    (job : Job) : Except PyError Unit :=
  if job.leaseOwner ≠ some worker then
    .error (.runtime s!"job {id} is not leased by {worker}")
  else
    match job.leaseExpiresAt with
    | none => .error (.runtime s!"job {id} lease for {worker} has expired")
    | some expires =>
        if expires ≤ now then
          .error (.runtime s!"job {id} lease for {worker} has expired")
        else .ok ()

@[simp]
theorem requireLiveLease_eq_ok {id : JobId} {worker : WorkerId} {now : Time}
    {job : Job} {value : Unit} :
    job.requireLiveLease id worker now = .ok value ↔
      job.live worker now = true := by
  unfold requireLiveLease live
  by_cases owned : job.leaseOwner = some worker
  · cases expiry : job.leaseExpiresAt with
    | none => simp [owned]
    | some expires =>
        by_cases expired : expires ≤ now
        · simp [owned, expired]
        · simp [owned, expired, Nat.lt_of_not_le expired]
  · simp [owned]

/-- The lease columns set to `NULL`. -/
def release (job : Job) : Job :=
  { job with leaseOwner := none, leaseExpiresAt := none }

/-- `ORDER BY patchset_number DESC, created_at DESC`. -/
def isMoreRecent (job other : Job) : Bool :=
  other.patchsetNumber < job.patchsetNumber ||
    (other.patchsetNumber = job.patchsetNumber && other.createdAt < job.createdAt)

end Job

namespace Store

/-- `JobStore.get`. -/
def get (store : Store) (id : JobId) : Option JobRecord :=
  (store.jobs[id]?).map (Job.record id)

def setJob (store : Store) (id : JobId) (job : Job) : Store :=
  { store with jobs := store.jobs.set id job }

def onJob {Value : Type} (store : Store) (id : JobId)
    (action : Job → Except PyError (Job × Value)) :
    Except PyError (Store × Value) :=
  match store.jobs[id]? with
  | none => .error (.key id)
  | some job =>
      match action job with
      | .error raised => .error raised
      | .ok (written, value) => .ok (store.setJob id written, value)

/-- A committed transaction on one job wrote exactly what its action returned. -/
theorem onJob_eq_ok {Value : Type} {store target : Store} {id : JobId}
    {action : Job → Except PyError (Job × Value)} {value : Value} :
    store.onJob id action = .ok (target, value) ↔
      ∃ job written, store.jobs[id]? = some job ∧
        action job = .ok (written, value) ∧ target = store.setJob id written := by
  unfold onJob
  cases row : store.jobs[id]? with
  | none => simp
  | some job =>
      constructor
      · intro committed
        cases acted : action job with
        | error raised => simp [acted] at committed
        | ok outcome =>
            obtain ⟨written, returned⟩ := outcome
            simp only [acted, Except.ok.injEq, Prod.mk.injEq] at committed
            obtain ⟨rfl, rfl⟩ := committed
            exact ⟨job, written, rfl, acted, rfl⟩
      · rintro ⟨_, written, found, wrote, rfl⟩
        cases found
        simp [wrote]

def hasNewer (store : Store) (job : Job) : Bool :=
  store.jobs.any fun other =>
    other.sameChange job && job.patchsetNumber < other.patchsetNumber

end Store

end PeReview
