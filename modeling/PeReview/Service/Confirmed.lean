import PeReview.Review.Native.Complete
import PeReview.Service.Review

/-!
# Confirmed findings are not resolved

A prior finding that some verifier batch has returned is either a finding of the
result or makes the review incomplete, so the reconciliation of the worker does not
list it as resolved.
-/

namespace PeReview

open PeReview.Data PeReview.Process PeReview.Scheduling PeReview.Native

section Conclusion

variable {review : NativeReview} {worktree : Worktree} {progress : ReviewProgress}
  {verified : PhaseResult (List Finding)} {usage : Usage} {result : ReviewResult}

/-- A complete conclusion has validated every prior finding the model returned, and
has cut off nothing. -/
theorem stopReasons_eq_nil {modelFindings validated findings : List Finding}
    (nothing :
      stopReasons review progress verified modelFindings validated findings = []) :
    validated.length ≤ findings.length ∧
      ∀ finding ∈ modelFindings,
        finding.semanticId ∈ review.context.previousFindings.map Finding.semanticId →
          finding.semanticId ∈ validated.map Finding.semanticId := by
  unfold stopReasons at nothing
  dsimp only at nothing
  rw [List.append_eq_nil_iff, List.append_eq_nil_iff] at nothing
  obtain ⟨⟨_, uncut⟩, confirmed⟩ := nothing
  constructor
  · by_contra cut
    rw [if_pos (Nat.lt_of_not_le cut)] at uncut
    cases uncut
  · intro finding member prior
    by_contra missing
    have unconfirmed : modelFindings.any fun finding =>
        (review.context.previousFindings.map Finding.semanticId).contains
            finding.semanticId &&
          !(validated.map Finding.semanticId).contains finding.semanticId := by
      rw [List.any_eq_true]
      refine ⟨finding, member, ?_⟩
      rw [Bool.and_eq_true, Bool.not_eq_true', List.contains_iff_mem]
      refine ⟨prior, ?_⟩
      rw [← Bool.not_eq_true, List.contains_iff_mem]
      exact missing
    rw [if_pos unconfirmed] at confirmed
    cases confirmed

theorem lineageComplete_conclude
    (concluded : conclude review worktree progress verified usage = .ok result) :
    ∃ flag, result.reviewMetadata.lineageComplete = some flag := by
  unfold conclude at concluded
  obtain ⟨results, found, rest⟩ := Except.bind_eq_ok.mp concluded
  obtain ⟨validated, accepted, same⟩ := Except.bind_eq_ok.mp rest
  cases same
  exact ⟨_, rfl⟩

/-- A complete conclusion has every prior finding a completed batch returned. -/
theorem exists_of_confirmed {item : WorkItem (List Finding)} {answer : ParsedReview}
    {finding : Finding}
    (concluded : conclude review worktree progress verified usage = .ok result)
    (complete : result.reviewMetadata.lineageComplete = some true)
    (completed : item ∈ verified.completed)
    (answered : resultOf progress.checkpoints item.key = .ok answer)
    (confirmed : finding ∈ answer.findings)
    (prior :
      finding.semanticId ∈ review.context.previousFindings.map Finding.semanticId) :
    ∃ kept ∈ result.findings, kept.semanticId = finding.semanticId := by
  unfold conclude at concluded
  obtain ⟨results, found, rest⟩ := Except.bind_eq_ok.mp concluded
  obtain ⟨validated, accepted, same⟩ := Except.bind_eq_ok.mp rest
  obtain ⟨value, isResult, computed⟩ :=
    Except.exists_of_mapM_eq_ok found item completed
  cases answered.symm.trans computed
  have returned : finding ∈ results.flatMap ParsedReview.findings :=
    List.mem_flatMap.mpr ⟨answer, isResult, confirmed⟩
  cases same
  simp only [Option.some.injEq, Bool.and_eq_true, List.isEmpty_iff] at complete
  obtain ⟨uncut, allConfirmed⟩ := stopReasons_eq_nil complete.2
  obtain ⟨kept, isValidated, sameId⟩ :=
    List.mem_map.mp (allConfirmed finding returned prior)
  have whole : validated.take review.settings.maxFindings = validated := by
    rw [List.take_eq_self_iff]
    rw [List.length_take] at uncut
    omega
  refine ⟨kept, ?_, sameId⟩
  change kept ∈ validated.take review.settings.maxFindings
  rw [whole]
  exact isValidated

end Conclusion

/-! ## The record of a complete review -/

/-- The record of a complete review is that of a verification phase that has
concluded. -/
def Promoted (review : NativeReview) (progress : ReviewProgress) : Prop :=
  progress.phase = .complete →
    ∃ (durable : Option ReviewProgress) (phase : PhaseState (List Finding))
      (result : ReviewResult),
      Verifying review durable phase ∧ RecordSound review phase.progress ∧
        Concluded review phase result ∧
        progress = { phase.record with phase := .complete, result := some result }

theorem promoted_saves {review : NativeReview} {source : EngineState}
    {progress : ReviewProgress} (synced : Synced review source)
    (sound : RecordsSound review source)
    (saves : source.control.saves = some progress) : Promoted review progress := by
  have base := sound.base
  obtain ⟨durable, control⟩ := source
  unfold Synced at synced
  intro complete
  cases control with
  | opening attempt opened =>
      cases saves
      rw [synced.2.stage] at complete
      cases complete
  | candidate phase =>
      obtain ⟨_, rfl⟩ := saves_eq_some saves
      have stage : phase.record.phase = .candidate := synced.stage
      rw [stage] at complete
      cases complete
  | freezing phase manifest =>
      cases saves
      obtain ⟨results, found, stage, rest⟩ := freeze_eq_ok synced.2.frozen
      rw [stage] at complete
      cases complete
  | verification phase =>
      obtain ⟨_, rfl⟩ := saves_eq_some saves
      have stage : phase.record.phase = .verification := synced.stage
      rw [stage] at complete
      cases complete
  | completing phase result =>
      cases saves
      exact ⟨durable, phase, result, synced.1, base _ rfl, synced.2, rfl⟩
  | idle | recovering | loading attempt | readingLegacy attempt
  | counting phase result | returned result | raised error =>
      cases saves

theorem Native.EngineReached.promoted {review : NativeReview} {backend : Backend}
    {state : EngineState} (free : CollisionFree review.hash)
    (reached : EngineReached review backend state) {progress : ReviewProgress}
    (known : state.durable = some progress) : Promoted review progress := by
  let kept (state : EngineState) : Prop :=
    RecordsSound review state ∧
      ∀ progress, state.durable = some progress → Promoted review progress
  have holds : Synced review state ∧ kept state := by
    refine reached.invariant ?_ ?_
    · refine ⟨⟨?_, ?_⟩, ?_⟩
      · intro progress known
        cases known
      · intro progress base
        cases base
      · intro progress known
        cases known
    · rintro event source target synced ⟨sound, promoted⟩ steps
      refine ⟨recordsSound_steps free synced sound steps, ?_⟩
      rcases steps.durable with ⟨_, same⟩ | ⟨_, saved, saves, _, stored⟩
      · rw [same]
        exact promoted
      · intro other found
        cases stored.symm.trans found
        exact promoted_saves synced sound saves
  exact holds.2.2 progress known

/-- A prior finding that a completed verifier batch returned is not resolved by the
reconciliation of the worker, whatever the validator made of it. -/
theorem confirmed_not_resolved {review : NativeReview} {backend : Backend}
    {state : EngineState} {result : ReviewResult} {progress : ReviewProgress}
    {path : List Nat} {item : WorkItem (List Finding)} {answer : ParsedReview}
    {raws : List Finding} {finding : Finding} {semanticId : String}
    {history : FindingHistory} (digest : Digest) (project : String)
    (policy : Option ProjectReviewPolicy) (free : CollisionFree review.hash)
    (reached : EngineReached review backend state)
    (returned : state.control = .returned (some result))
    (known : state.durable = some progress)
    (batch :
      (review.verificationForest progress.frozenCandidates).Node path item)
    (completed : statusOf progress.checkpoints item.key = some .done)
    (answered : resultOf progress.checkpoints item.key = .ok answer)
    (parsed : raws.mapM Finding.modelValidate = .ok answer.findings)
    (confirmed : finding ∈ answer.findings)
    (named : finding.semanticId = some semanticId)
    (sameBaseline : history.previousFindings = review.context.previousFindings)
    (prior :
      some semanticId ∈ history.previousFindings.map Finding.semanticId) :
    let reviewed := withPolicyMetadata policy result
    ∀ resolved ∈
      (reconcileFindingLineage digest project reviewed history
        (reviewed.reviewMetadata.lineageComplete.getD true)).resolvedFindings,
      resolved.semanticId ≠ some semanticId := by
  intro reviewed resolved member same
  have lineage : reviewed.reviewMetadata.lineageComplete =
      result.reviewMetadata.lineageComplete := by
    cases policy <;> rfl
  have findings : reviewed.findings = result.findings := by
    cases policy <;> rfl
  obtain ⟨whole, other, otherNamed, missing⟩ := of_mem_resolvedFindings member
  cases otherNamed.symm.trans same
  rw [lineage] at whole
  have synced := (reached.recordsSound free).1
  simp only [Synced, returned] at synced
  rcases synced with rfl | ⟨record, stored, complete, finished⟩
  · cases whole
  · cases known.symm.trans stored
    obtain ⟨durable, phase, conclusion, verifying, sound, concluded, rfl⟩ :=
      reached.promoted free known complete
    cases finished
    have extended := verifying.reached.extends_ (Verifying.resumes free sound)
    have isCompleted : item ∈ phase.scheduler.outcome.completed :=
      extended.completes concluded.isOver path item batch completed
    obtain ⟨ended, totals, concludes, rfl⟩ := concluded.concluded
    have marked : ended.reviewMetadata.lineageComplete = some true := by
      cases recorded : ended.reviewMetadata.lineageComplete with
      | none =>
          obtain ⟨flag, known⟩ := lineageComplete_conclude concludes
          cases recorded.symm.trans known
      | some flag =>
          simpa [recorded] using whole
    have isPrior : finding.semanticId ∈
        review.context.previousFindings.map Finding.semanticId := by
      rw [named, ← sameBaseline]
      exact prior
    obtain ⟨kept, isKept, keptId⟩ :=
      exists_of_confirmed concludes marked isCompleted answered confirmed isPrior
    refine missing kept (findings ▸ isKept) ?_
    exact
      Finding.semanticKey_of_some (keptId.trans named)
        (semanticId_ne_empty parsed confirmed named)

/-- The sample review confirms the prior finding, and it is not resolved. -/
theorem confirmed_not_resolved_moved :
    ∃ state result progress, ∃ item : WorkItem (List Finding), ∃ answer,
      run (engineStep sampleReview memoryBackend)
          (.review sampleAttempt :: answeredReview) {} = some state ∧
        state.control = .returned (some result) ∧
        state.durable = some progress ∧
        resultOf progress.checkpoints item.key = .ok answer ∧
        sampleFinding 1 (some "0123456789abcdef0123456789abcdef") ∈ answer.findings ∧
        ∀ resolved ∈
          (reconcileFindingLineage sampleDigest "firmware" result
            { baselinePatchset := some 1
              previousFindings := sampleContext.previousFindings
              seenSemanticIds := [] }
            (result.reviewMetadata.lineageComplete.getD true)).resolvedFindings,
          resolved.semanticId ≠ some "0123456789abcdef0123456789abcdef" := by
  have answered :
      ((run (engineStep sampleReview memoryBackend)
          (.review sampleAttempt :: answeredReview) {}).bind fun state =>
        state.control.answer.bind fun result =>
          state.durable.bind fun progress =>
            (sampleReview.verificationForest
                progress.frozenCandidates).roots[0]?.bind fun item =>
              (resultOf progress.checkpoints item.key).toOption.bind fun answer =>
                if statusOf progress.checkpoints item.key = some .done ∧
                    answer.findings = sampleAnswer then
                  result.reviewMetadata.lineageComplete
                else none) =
        some true := by
    decide +kernel
  obtain ⟨state, ran, found⟩ := Option.bind_eq_some_iff.mp answered
  obtain ⟨result, answers, found⟩ := Option.bind_eq_some_iff.mp found
  obtain ⟨progress, known, found⟩ := Option.bind_eq_some_iff.mp found
  obtain ⟨item, root, found⟩ := Option.bind_eq_some_iff.mp found
  obtain ⟨answer, computed, found⟩ := Option.bind_eq_some_iff.mp found
  have answeredItem : resultOf progress.checkpoints item.key = .ok answer := by
    cases outcome : resultOf progress.checkpoints item.key with
    | error error =>
        rw [outcome] at computed
        cases computed
    | ok value =>
        rw [outcome] at computed
        cases computed
        rfl
  split at found
  · rename_i both
    obtain ⟨completed, findings⟩ := both
    have confirmed :
        sampleFinding 1 (some "0123456789abcdef0123456789abcdef") ∈ answer.findings := by
      rw [findings]
      exact List.mem_cons_of_mem _ List.mem_cons_self
    have parsed : sampleAnswer.mapM Finding.modelValidate = .ok answer.findings := by
      rw [findings]
      decide +kernel
    have returned := returned_of_answer answers
    refine
      ⟨state, result, progress, item, answer, ran, returned, known, answeredItem,
        confirmed, ?_⟩
    exact
      confirmed_not_resolved sampleDigest "firmware" none collisionFree_sampleHash
        ⟨{}, _, rfl, ran⟩ returned known (.root root) completed answeredItem parsed
        confirmed rfl rfl List.mem_cons_self
  · cases found

end PeReview
