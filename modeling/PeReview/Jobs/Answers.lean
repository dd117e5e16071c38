import PeReview.Jobs.Refinement
import PeReview.Jobs.QueueRefinement

/-!
# What an answer tells

What a worker learns about the row of its job from the answer of a committed
transaction.
-/

namespace PeReview

open PeReview.Data

namespace Store

variable {store target : Store} {id : JobId} {now lease : Time}
  {worker : WorkerId} {hashes : Hashes} {row : Row}

/-- The row of a job that has just been written. -/
theorem row_setJob {job written : Job} (found : store.jobs[id]? = some job)
    (reached : (store.setJob id written).row? id = some row) :
    row = written.row := by
  rw [row?_setJob_self found] at reached
  exact (Option.some.inj reached).symm

theorem get_id {record : JobRecord} (answered : store.get id = some record) :
    record.id = id := by
  obtain ⟨job, _, rfl⟩ := Option.map_eq_some_iff.mp answered
  rfl

theorem get_answer {record : Option JobRecord}
    (answered : store.get id = record) (reached : store.row? id = some row) :
    ∃ current, record = some current ∧ current.state = row.state := by
  obtain ⟨job, found, rfl⟩ := row?_eq_some.mp reached
  rw [get, found] at answered
  exact ⟨job.record id, answered.symm, rfl⟩

theorem transition_answer {goal : JobState} {releaseLease : Bool}
    {record : JobRecord}
    (ran : store.transition now id goal worker releaseLease =
      .ok (target, record)) :
    record.id = id ∧ record.state = goal ∧
      ∀ row, target.row? id = some row → row.state = goal := by
  obtain ⟨job, written, found, acted, rfl⟩ := onJob_eq_ok.mp ran
  simp only [Except.bind_eq_ok, Job.requireLiveLease_eq_ok,
    requireTransition_eq_ok] at acted
  obtain ⟨_, _, _, _, finished⟩ := acted
  cases finished
  refine ⟨rfl, ?_, ?_⟩
  · simp only [Job.record]
    split <;> rfl
  · intro row reached
    rw [row_setJob found reached]
    simp only [Job.row]
    split <;> rfl

theorem startAttempt_answer {stage : AttemptStage} {attempt : AttemptId}
    (ran : store.startAttempt now id stage worker = .ok (target, attempt)) :
    attempt.job = id := by
  unfold startAttempt at ran
  cases found : store.jobs[id]? with
  | none => simp [found] at ran
  | some job =>
      simp only [found] at ran
      split at ran
      · cases ran
        rfl
      · cases ran

theorem publicationForJob_answer {publication : Option Publication}
    (answered : store.publicationForJob id = publication)
    (reached : store.row? id = some row) :
    row.publication =
      publication.map fun entry => (entry.status, entry.requestPayload) := by
  obtain ⟨job, found, rfl⟩ := row?_eq_some.mp reached
  rw [publicationForJob, found] at answered
  rw [← answered]
  rfl

theorem publicationForJob_some {publication : Publication}
    (answered : store.publicationForJob id = some publication) :
    ∃ row, store.row? id = some row ∧
      row.publication = some (publication.status, publication.requestPayload) := by
  cases found : store.jobs[id]? with
  | none => simp [publicationForJob, found] at answered
  | some job =>
      refine ⟨job.row, row?_of_getElem? found, ?_⟩
      exact publicationForJob_answer answered (row?_of_getElem? found)

theorem beginPublication_answer {payload : ReviewInput}
    {fingerprints : List String} {publication : Publication}
    (ran : store.beginPublication hashes now id worker payload fingerprints =
      .ok (target, publication)) :
    ∃ row, target.row? id = some row ∧
      row.publication = some (publication.status, publication.requestPayload) := by
  obtain ⟨job, written, found, acted, rfl⟩ := onJob_eq_ok.mp ran
  refine ⟨written.row, row?_setJob_self found, ?_⟩
  simp only [Except.bind_eq_ok, Job.requireLiveLease_eq_ok,
    Except.require_eq_ok, decide_eq_true_eq] at acted
  obtain ⟨_, _, _, _, rest⟩ := acted
  cases present : job.publication with
  | none =>
      simp only [present] at rest
      cases rest
      rfl
  | some entry =>
      simp only [present] at rest
      obtain ⟨_, _, finished⟩ := Except.bind_eq_ok.mp rest
      cases finished
      simp [Job.row, present]

theorem loadReviewResult_answer (answered : store.loadReviewResult id = none)
    (reached : store.row? id = some row) :
    row.hasResult = false := by
  obtain ⟨job, found, rfl⟩ := row?_eq_some.mp reached
  simp only [loadReviewResult, found] at answered
  simpa [Job.row] using answered

theorem refreshPublishGuard_answer
    (ran : store.refreshPublishGuard now lease id worker = (target, .ok)) :
    ∃ row, target.row? id = some row ∧ row.state = .publishing ∧
      row.leaseOwner = some worker ∧ row.leaseExpiresAt = some (now + lease) := by
  unfold refreshPublishGuard at ran
  cases found : store.jobs[id]? with
  | none => simp [found] at ran
  | some job =>
      simp only [found] at ran
      split at ran
      · cases ran
      · rename_i allowed
        simp only [ne_eq, Bool.or_eq_true, decide_eq_true_eq,
          Bool.not_eq_true', not_or, Decidable.not_not] at allowed
        split at ran
        · cases ran
        · cases ran
          refine ⟨_, row?_setJob_self found, allowed.1, ?_, rfl⟩
          have live : job.live worker now = true := by simpa using allowed.2
          exact (Row.live_iff.mp ((Job.live_row worker now job).trans live)).1

theorem completePublicationAndMarkDone_answer {publication : JobId}
    {response : Option GerritResponse} {deferDone : Bool} {record : JobRecord}
    (ran : store.completePublicationAndMarkDone now publication id worker
      response deferDone = .ok (target, record)) :
    record.id = id := by
  obtain ⟨job, written, found, acted, rfl⟩ := onJob_eq_ok.mp ran
  obtain ⟨_, _, rest⟩ := Except.bind_eq_ok.mp acted
  cases present : job.publication with
  | none => simp [present] at rest
  | some row =>
      simp only [present] at rest
      split at rest
      · cases rest
        rfl
      · obtain ⟨_, _, rest⟩ := Except.bind_eq_ok.mp rest
        obtain ⟨_, _, rest⟩ := Except.bind_eq_ok.mp rest
        split at rest
        · obtain ⟨_, _, rest⟩ := Except.bind_eq_ok.mp rest
          obtain ⟨_, _, rest⟩ := Except.bind_eq_ok.mp rest
          cases rest
          rfl
        · cases rest
          rfl

theorem markPublicationAmbiguous_answer {error : String}
    (ran : store.markPublicationAmbiguous id error = .ok (target, ()))
    (reached : target.row? id = some row) :
    row.publication.map Prod.fst = some .ambiguous := by
  unfold markPublicationAmbiguous updatePublication at ran
  cases found : store.jobs[id]? with
  | none => simp [found] at ran
  | some job =>
      cases present : job.publication with
      | none => simp [found, present] at ran
      | some entry =>
          simp only [found, present] at ran
          cases ran
          rw [row_setJob found reached]
          rfl

end Store

end PeReview
