import PeReview.Jobs.Table

/-!
# What others do to a job row

The transactions that are not a worker's work on its own job: an enqueue orders
the patch sets of a change, an admin scope change skips queued work, an operator
requeues a failed job, and a claim leases a row.
-/

namespace PeReview

namespace Row

/-- What an enqueue does to a row that was there before. -/
inductive Enqueued (row : Row) : Row → Prop
  | keep : Enqueued row row
  | supersede (retryState : Option JobState)
      (cleared : retryState = row.retryState ∨ retryState = none)
      (opened : row.state.isTerminal = false)
      (settled : row.recovering = false) :
      Enqueued row { row.release with state := .superseded, retryState }
  | revive (skipped : row.state = .skippedScope) :
      Enqueued row { row with state := .received, retryState := none }
  /-- A revived row that a newer patch set supersedes at once. -/
  | reviveOlder (skipped : row.state = .skippedScope) :
      Enqueued row
        { row.release with state := .superseded, retryState := none }

structure Fresh (row : Row) : Prop where
  state : row.state = .received ∨ row.state = .skippedScope ∨
    row.state = .superseded
  retryState : row.retryState = none
  leaseOwner : row.leaseOwner = none
  leaseExpiresAt : row.leaseExpiresAt = none
  hasResult : row.hasResult = false
  publication : row.publication = none

/-- What an admin scope change does to a row. -/
inductive Skipped (now : Time) (row : Row) : Row → Prop
  | keep : Skipped now row row
  | skip (opened : row.state.isTerminal = false)
      (free : row.leaseOwner = none ∨ row.idle now)
      (unpublished : row.publication = none) :
      Skipped now row
        { row.release with state := .skippedScope, retryState := none }

def requeueState (row : Row) : JobState :=
  match row.publication with
  | some (.posted, _) => .done
  | some _ => .publishing
  | none => if row.hasResult then .readyToPublish else .received

def requeued (row : Row) : Row :=
  { row.release with
    state := row.requeueState
    retryState := none
    publication := row.publication.map fun entry : PublicationStatus × ReviewInput =>
      (if entry.1 = .failed then .pending else entry.1, entry.2) }

def claimed (worker : WorkerId) (now lease : Time) (row : Row) : Row :=
  { row with
    state := row.phase
    retryState := if row.state = .retryWait then none else row.retryState
    leaseOwner := some worker
    leaseExpiresAt := some (now + lease) }

/-- A waiting row knows where to resume, so that the conditions of the bulk
updates of an enqueue are never `NULL`. -/
def Resumable (row : Row) : Prop :=
  row.state = .retryWait → row.retryState ≠ none

theorem Valid.resumable {row : Row} (valid : row.Valid) : row.Resumable := by
  intro waiting
  obtain ⟨state, known, _⟩ := valid.resumes waiting
  simp [known]

/-- Which job a row is: no transaction changes it. -/
def identity (row : Row) : String × Int × Int :=
  (row.project, row.changeNumber, row.patchsetNumber)

theorem olderThan_congr {row other changed changedOther : Row}
    (same : changed.identity = row.identity)
    (sameOther : changedOther.identity = other.identity) :
    changed.olderThan changedOther ↔ row.olderThan other := by
  simp only [identity, Prod.mk.injEq] at same sameOther
  simp [olderThan, sameChange, same, sameOther]

theorem Enqueued.identity {row changed : Row} (step : row.Enqueued changed) :
    changed.identity = row.identity := by
  cases step <;> rfl

theorem Skipped.identity {row changed : Row} {now : Time}
    (step : row.Skipped now changed) :
    changed.identity = row.identity := by
  cases step <;> rfl

theorem identity_apply (now lease : Time) (action : RowAction) (row : Row) :
    (action.apply now lease row).identity = row.identity := by
  cases action with
  | move target release =>
      simp only [RowAction.apply]
      split <;> rfl
  | post defer =>
      cases defer <;> rfl
  | _ => rfl

theorem Valid.fresh {row : Row} (fresh : row.Fresh) : row.Valid := by
  obtain ⟨state, retryState, leaseOwner, leaseExpiresAt, hasResult,
    publication⟩ := fresh
  constructor
  · intro _
    exact ⟨leaseOwner, leaseExpiresAt⟩
  · rcases state with known | known | known <;> simp [known]
  · rcases state with known | known | known <;> simp [known]
  · rcases state with known | known | known <;>
      simp [known, phase, publication]
  · simp [publication]

/-- Closing an open row that has no unresolved publication keeps it valid. -/
theorem Valid.closed {row : Row} (valid : row.Valid) (target : JobState)
    (retryState : Option JobState)
    (closing : target = .superseded ∨ target = .skippedScope) :
    ({ row.release with state := target, retryState } : Row).Valid := by
  have reviewed := valid.reviewed
  rcases closing with rfl | rfl
  · constructor
    · simp [Row.release]
    · simp
    · simp
    · simp only [phase, Row.release]
      rintro (ready | publishing | present)
      · simp at ready
      · simp at publishing
      · exact reviewed (.inr (.inr present))
    · intro _
      exact .inr rfl
  · constructor
    · simp [Row.release]
    · simp
    · simp
    · simp only [phase, Row.release]
      rintro (ready | publishing | present)
      · simp at ready
      · simp at publishing
      · exact reviewed (.inr (.inr present))
    · intro _
      exact .inr rfl

theorem Valid.enqueued {row target : Row} (valid : row.Valid)
    (unpublished : row.state = .skippedScope → row.publication = none)
    (step : Enqueued row target) :
    target.Valid := by
  cases step with
  | keep => exact valid
  | supersede retryState _ opened settled =>
      exact valid.closed .superseded retryState (.inl rfl)
  | revive skipped =>
      have absent := unpublished skipped
      have unleased :=
        valid.unleased (.inl (by simp [skipped, JobState.isTerminal]))
      constructor <;> simp [phase, absent, unleased]
  | reviveOlder skipped =>
      exact valid.closed .superseded none (.inl rfl)

theorem Valid.skipped {row target : Row} {now : Time} (valid : row.Valid)
    (step : Skipped now row target) :
    target.Valid := by
  cases step with
  | keep => exact valid
  | skip opened free unpublished =>
      exact valid.closed .skippedScope none (.inr rfl)

theorem Valid.requeued {row : Row} (valid : row.Valid) :
    row.requeued.Valid := by
  have reviewed := valid.reviewed
  cases present : row.publication with
  | none =>
      cases result : row.hasResult <;> constructor <;>
        simp [Row.requeued, requeueState, present, result, Row.release, phase]
  | some entry =>
      obtain ⟨status, payload⟩ := entry
      have result : row.hasResult :=
        reviewed (.inr (.inr (by simp [present])))
      cases status <;> constructor <;>
        simp [Row.requeued, requeueState, present, result, Row.release, phase,
          recovering, JobState.isTerminal]

/-- In publication recovery a valid row continues in `PUBLISHING`. -/
theorem Valid.recovering_iff {row : Row} (valid : row.Valid) :
    row.recovering = true ↔ row.phase = .publishing := by
  by_cases waiting : row.state = .retryWait
  · obtain ⟨resumed, known, _⟩ := valid.resumes waiting
    simp [recovering, phase, waiting, known]
  · simp [recovering, phase, waiting]

/-- A valid row that is open continues in a running state. -/
theorem Valid.phase_running {row : Row} (valid : row.Valid)
    (opened : row.state.isTerminal = false) :
    row.phase.isTerminal = false ∧ row.phase ≠ .retryWait ∧
      row.phase ≠ .failedTransient := by
  by_cases waiting : row.state = .retryWait
  · obtain ⟨resumed, known, resumable⟩ := valid.resumes waiting
    have phaseKnown : row.phase = resumed := by simp [phase, waiting, known]
    have running := not_isTerminal_of_validRetryTarget resumable
    rw [phaseKnown]
    cases resumed <;> simp_all [validRetryTarget]
  · have phaseKnown : row.phase = row.state := by simp [phase, waiting]
    rw [phaseKnown]
    exact ⟨opened, waiting, valid.known⟩

theorem claimed_phase {row : Row} {worker : WorkerId} {now lease : Time}
    (running : row.phase ≠ .retryWait) :
    (row.claimed worker now lease).phase = row.phase := by
  rw [phase]
  exact if_neg running

theorem Valid.claimed {row : Row} {worker : WorkerId} {now lease : Time}
    (valid : row.Valid) (opened : row.state.isTerminal = false) :
    (row.claimed worker now lease).Valid := by
  obtain ⟨running, started, known⟩ := valid.phase_running opened
  have phaseKept : (row.claimed worker now lease).phase = row.phase :=
    claimed_phase started
  constructor
  · rintro (closed | waiting)
    · rw [show (row.claimed worker now lease).state = row.phase from rfl,
        running] at closed
      cases closed
    · exact absurd waiting started
  · intro waiting
    exact absurd waiting started
  · exact known
  · rw [phaseKept]
    exact valid.reviewed
  · intro present
    left
    have recovers : row.recovering ∨ row.state.isTerminal :=
      valid.published present
    rw [opened] at recovers
    have publishing : row.phase = .publishing :=
      valid.recovering_iff.mp (by simpa using recovers)
    simp [recovering, Row.claimed, publishing]

end Row

end PeReview
