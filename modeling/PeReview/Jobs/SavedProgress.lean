import PeReview.Jobs.Columns
import PeReview.Jobs.Progress

/-!
# Saved progress

What becomes of the record of a review in `PostgresProgressBackend`: a save that is
accepted takes it forward.
-/

namespace PeReview

open PeReview.Data

def Finding.texts (finding : Finding) : List String :=
  [finding.category, finding.title, finding.message, finding.impact, finding.evidence,
      finding.location.path] ++
    [finding.remediation, finding.fingerprint, finding.semanticId].filterMap id

def ParsedReview.texts (review : ParsedReview) : List String :=
  review.summary :: review.findings.flatMap Finding.texts

def WorkCheckpoint.texts (checkpoint : WorkCheckpoint) : List String :=
  checkpoint.key :: checkpoint.parentKey.toList ++ checkpoint.paths ++
    checkpoint.result.toList.flatMap ParsedReview.texts ++ checkpoint.limitations

def ReviewResult.texts (review : ReviewResult) : List String :=
  review.summary :: review.model.toList ++ review.findings.flatMap Finding.texts ++
    review.reviewMetadata.texts

namespace ReviewProgress

def texts (progress : ReviewProgress) : List String :=
  progress.inputKey :: progress.changeSummary ::
    (progress.checkpoints.flatMap fun entry => entry.1 :: entry.2.texts) ++
      progress.frozenCandidates.flatMap Finding.texts ++ progress.coverage.uncoveredFiles ++
      progress.candidateLimitations ++ progress.result.toList.flatMap ReviewResult.texts

/-- The record can be written as a `JSONB` value. -/
def isStorable (progress : ReviewProgress) : Bool :=
  progress.texts.all PeReview.isStorable

/-- What is frozen with the candidate phase. -/
def manifest (progress : ReviewProgress) :
    List Finding × Usage × Coverage × List String :=
  (progress.frozenCandidates, progress.candidateUsage, progress.coverage,
    progress.candidateLimitations)

/-- One record of a review is later than another one. -/
structure Advances (old progress : ReviewProgress) : Prop where
  phase : old.phase.order ≤ progress.phase.order
  manifest : old.phase ≠ .candidate → old.manifest = progress.manifest
  result : old.phase = .complete → old.result = progress.result

variable {old middle progress : ReviewProgress}

theorem Advances.refl (progress : ReviewProgress) : progress.Advances progress where
  phase := Nat.le_refl _
  manifest := fun _ => rfl
  result := fun _ => rfl

theorem phase_ne_candidate_of_le (phases : old.phase.order ≤ progress.phase.order)
    (later : old.phase ≠ .candidate) : progress.phase ≠ .candidate := by
  intro early
  rw [early] at phases
  cases stage : old.phase with
  | candidate => exact later stage
  | verification | complete =>
      rw [stage] at phases
      cases phases

theorem phase_eq_complete_of_le (phases : old.phase.order ≤ progress.phase.order)
    (complete : old.phase = .complete) : progress.phase = .complete := by
  rw [complete] at phases
  cases stage : progress.phase with
  | complete => rfl
  | candidate | verification =>
      rw [stage] at phases
      exact absurd phases (by decide)

theorem Advances.trans (first : old.Advances middle) (second : middle.Advances progress) :
    old.Advances progress where
  phase := Nat.le_trans first.phase second.phase
  manifest := by
    intro later
    rw [first.manifest later]
    exact second.manifest (phase_ne_candidate_of_le first.phase later)
  result := by
    intro complete
    rw [first.result complete]
    exact second.result (phase_eq_complete_of_le first.phase complete)

/-- A save is admitted if and only if it takes the record forward. -/
theorem admits_eq_ok_iff : old.admits progress = .ok () ↔ old.Advances progress := by
  unfold admits
  simp only [Except.bind_eq_ok, Except.require_eq_ok, exists_const, Bool.or_eq_true,
    Bool.and_eq_true, decide_eq_true_eq]
  constructor
  · rintro ⟨phases, results, manifests⟩
    refine ⟨phases, ?_, ?_⟩
    · intro later
      obtain ⟨⟨⟨candidates, usage⟩, coverage⟩, limitations⟩ :=
        manifests.resolve_left later
      unfold manifest
      rw [candidates, usage, coverage, limitations]
    · intro complete
      exact results.resolve_left (fun other => other complete)
  · intro advances
    refine ⟨advances.phase, ?_, ?_⟩
    · by_cases complete : old.phase = .complete
      · exact Or.inr (advances.result complete)
      · exact Or.inl complete
    · by_cases early : old.phase = .candidate
      · exact Or.inl early
      · have same := advances.manifest early
        unfold manifest at same
        simp only [Prod.mk.injEq] at same
        exact Or.inr ⟨⟨⟨same.1, same.2.1⟩, same.2.2.1⟩, same.2.2.2⟩

end ReviewProgress

namespace Store

variable {store final : Store} {now : Time} {id : JobId} {worker : WorkerId}
  {progress old : ReviewProgress} {job : Job} {key : String}

/-- `save`, with the flush of the row. -/
def flushProgress (store : Store) (now : Time) (id : JobId) (worker : WorkerId)
    (progress : ReviewProgress) : Except PyError (Store × Unit) := do
  let saved ← store.saveProgress now id worker progress
  Except.require progress.isStorable
    { cls := .databaseError, message := "unsupported Unicode escape sequence" }
  .ok saved

def flushSaves (store : Store) (id : JobId) :
    List (Time × WorkerId × ReviewProgress) → Except PyError Store
  | [] => .ok store
  | (now, worker, progress) :: rest => do
      let saved ← store.flushProgress now id worker progress
      saved.1.flushSaves id rest

theorem flushProgress_eq_ok :
    store.flushProgress now id worker progress = .ok (final, ()) ↔
      ∃ job, store.jobs[id]? = some job ∧ job.live worker now = true ∧
        (∀ old, Dict.get? job.progress progress.inputKey = some old →
          old.payload.Advances progress) ∧
        progress.isStorable = true ∧
        final = store.setJob id
          { job with
            progress :=
              Dict.set job.progress progress.inputKey
                { payload := progress, updatedAt := now } } := by
  unfold flushProgress saveProgress
  simp only [Except.bind_eq_ok, Except.require_eq_ok, exists_const, Prod.exists]
  constructor
  · rintro ⟨saved, _, committed, storable, returned⟩
    cases returned
    obtain ⟨job, written, found, acted, isFinal⟩ := onJob_eq_ok.mp committed
    obtain ⟨_, leased, rest⟩ := Except.bind_eq_ok.mp acted
    have live := Job.requireLiveLease_eq_ok.mp leased
    cases known : Dict.get? job.progress progress.inputKey with
    | none =>
        rw [known] at rest
        cases rest
        exact ⟨job, found, live, fun _ other => (nomatch known.symm.trans other), storable,
          isFinal⟩
    | some old =>
        rw [known] at rest
        obtain ⟨_, admitted, isWritten⟩ := Except.bind_eq_ok.mp rest
        cases isWritten
        refine ⟨job, found, live, ?_, storable, isFinal⟩
        intro other same
        cases known.symm.trans same
        exact ReviewProgress.admits_eq_ok_iff.mp admitted
  · rintro ⟨job, found, live, advances, storable, rfl⟩
    refine ⟨_, (), onJob_eq_ok.mpr ⟨job, _, found, ?_, rfl⟩, storable, rfl⟩
    have leased : job.requireLiveLease id worker now = .ok () :=
      Job.requireLiveLease_eq_ok.mpr live
    rw [leased, Except.ok_bind]
    cases known : Dict.get? job.progress progress.inputKey with
    | none => rfl
    | some old =>
        dsimp only
        rw [ReviewProgress.admits_eq_ok_iff.mpr (advances old known)]
        rfl

/-- What a save leaves of the records of a job. -/
theorem loadProgress_flushProgress
    (saved : store.flushProgress now id worker progress = .ok (final, ())) :
    final.loadProgress id key =
      if progress.inputKey = key then some progress else store.loadProgress id key := by
  obtain ⟨job, found, _, _, _, rfl⟩ := flushProgress_eq_ok.mp saved
  have inside : id < store.jobs.length := (List.getElem?_eq_some_iff.mp found).1
  unfold loadProgress setJob
  rw [List.getElem?_set_self inside, found, Option.bind_some, Option.bind_some, Dict.get?_set]
  split <;> rfl

theorem advances_of_flushProgress
    (saved : store.flushProgress now id worker progress = .ok (final, ()))
    (known : store.loadProgress id key = some old) :
    ∃ new, final.loadProgress id key = some new ∧ old.Advances new := by
  rw [loadProgress_flushProgress saved]
  by_cases same : progress.inputKey = key
  · rw [if_pos same]
    obtain ⟨job, found, _, advances, _, _⟩ := flushProgress_eq_ok.mp saved
    unfold loadProgress at known
    rw [found, Option.bind_some] at known
    obtain ⟨row, present, rfl⟩ := Option.map_eq_some_iff.mp known
    refine ⟨progress, rfl, advances row ?_⟩
    rw [same]
    exact present
  · rw [if_neg same]
    exact ⟨old, known, ReviewProgress.Advances.refl old⟩

/-- Saves that are accepted take every record of the job forward. -/
theorem advances_of_flushSaves {saves : List (Time × WorkerId × ReviewProgress)}
    (saved : store.flushSaves id saves = .ok final)
    (known : store.loadProgress id key = some old) :
    ∃ new, final.loadProgress id key = some new ∧ old.Advances new := by
  induction saves generalizing store old with
  | nil =>
      cases saved
      exact ⟨old, known, ReviewProgress.Advances.refl old⟩
  | cons save rest inductionHypothesis =>
      obtain ⟨now, worker, progress⟩ := save
      obtain ⟨⟨middle, _⟩, first, others⟩ := Except.bind_eq_ok.mp saved
      obtain ⟨later, found, advances⟩ := advances_of_flushProgress first known
      obtain ⟨new, reached, further⟩ := inductionHypothesis others found
      exact ⟨new, reached, advances.trans further⟩

end Store

end PeReview
