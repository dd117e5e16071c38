import PeReview.Jobs.Audit
import PeReview.Jobs.TerminalStates

/-!
# What is never taken back

The records of a job along every run of the system, whoever calls: its attempts, the audit of
its calls, its vote, its progress, and what it has decided to publish.
-/

namespace PeReview.System

open PeReview.Data PeReview.Process

variable {hashes : Hashes} {lease : Time} {source final : System} {labels : List SystemLabel}
  {id : JobId} {job : Job}

/-! ## A run that records -/

/-- A run up to a vote that is on its way. -/
def recordedRun : List SystemLabel :=
  [.enqueue
      { project := "p", changeNumber := 1, patchsetNumber := 1,
        revisionSha := "a" } "v",
    .claim "w" [], .work "w" (.bindProjectReviewPolicy 0 "en-US"),
    .work "w" (.transition 0 .fetching false), .work "w" (.transition 0 .reviewing false),
    .work "w" (.startAttempt 0 .review),
    .work "w"
      (.recordInvocation 0 (some { job := 0, number := 0 })
        { id := "i", inputKey := "k", phase := .candidate, workKey := "c", kind := .llm }),
    .work "w" (.saveProgress 0 { inputKey := "k" }),
    .work "w" (.transition 0 .validating false),
    .work "w" (.saveReviewResultAndMarkReady 0 { summary := "s" }),
    .claim "w" [], .work "w" (.transition 0 .publishing false),
    .work "w"
      (.beginPublication 0 { message := "m", tag := "t", notify := "NONE", comments := [] } []),
    .work "w" (.completePublicationAndMarkDone 0 0 none true),
    .work "w" (.ensureVote 0 { value := some 1, reason := "no_findings" } none),
    .work "w" (.dispatchVote 0 7)]

/-- What follows: the call and the attempt are finished, the vote is retried and settled. -/
def settlingRun : List SystemLabel :=
  [.work "w"
      (.recordInvocation 0 (some { job := 0, number := 0 })
        { id := "i", inputKey := "k", phase := .candidate, workKey := "c", kind := .llm,
          status := .completed }),
    .work "w" (.finishAttempt { job := 0, number := 0 } true none none),
    .work "w" (.saveProgress 0 { inputKey := "k", phase := .verification }),
    .work "w" (.retryVote 0 "timeout"),
    .work "w" (.finishVote 0 .applied none none (some 7)),
    .work "w" (.dispatchVote 0 8)]

def recordedSystem : System :=
  (run (step Hashes.constant 10) recordedRun {}).getD {}

def settledSystem : System :=
  (run (step Hashes.constant 10) settlingRun recordedSystem).getD {}

theorem recordedSystem_reached :
    Reachable (step Hashes.constant 10) Initial recordedSystem := by
  refine ⟨{}, recordedRun, ⟨rfl, rfl⟩, ?_⟩
  have runs : (run (step Hashes.constant 10) recordedRun {}).isSome := by
    decide +kernel
  obtain ⟨reached, known⟩ := Option.isSome_iff_exists.mp runs
  simp [recordedSystem, known]

theorem settledSystem_ran :
    run (step Hashes.constant 10) settlingRun recordedSystem = some settledSystem := by
  have runs : (run (step Hashes.constant 10) settlingRun recordedSystem).isSome := by
    decide +kernel
  obtain ⟨reached, known⟩ := Option.isSome_iff_exists.mp runs
  simp [settledSystem, known]

/-- The run leaves an attempt, a call, a result, a publication and a vote on its job. -/
theorem recordedJob_known :
    ∃ job vote, recordedSystem.store.jobs[0]? = some job ∧ job.vote = some vote ∧
      job.attempts.length = 1 ∧ job.invocations.length = 1 ∧ job.result.isSome ∧
      job.publication.isSome := by
  have known : (recordedSystem.store.jobs[0]?).any (fun job => job.vote.isSome &&
      job.attempts.length == 1 && job.invocations.length == 1 && job.result.isSome &&
      job.publication.isSome) = true := by
    decide +kernel
  obtain ⟨job, found, has⟩ := (Option.any_eq_true ..).mp known
  simp only [Bool.and_eq_true, beq_iff_eq] at has
  obtain ⟨⟨⟨⟨voted, attempts⟩, invocations⟩, result⟩, publication⟩ := has
  obtain ⟨vote, present⟩ := Option.isSome_iff_exists.mp voted
  exact ⟨job, vote, found, present, attempts, invocations, result, publication⟩

/-! ## Attempts -/

/-- Attempts stay as they were opened, and as they were finished; each is counted; and a new
retry epoch begins only where an operator requeues the job. -/
theorem attempts_append_only (reached : Reachable (step hashes lease) Initial source)
    (ran : run (step hashes lease) labels source = some final)
    (found : source.store.jobs[id]? = some job) :
    ∃ later, final.store.jobs[id]? = some later ∧
      KeptAt Attempt.Continues job.attempts later.attempts ∧
      later.attemptCount = later.attempts.length ∧
      job.retryEpochStartAttempt ≤ later.retryEpochStartAttempt ∧
      later.retryEpochStartAttempt ≤ later.attemptCount ∧
      (.requeue id ∉ labels →
        later.retryEpochStartAttempt = job.retryEpochStartAttempt) := by
  obtain ⟨later, isLater, continues, audited⟩ := job_continues reached ran found
  refine ⟨later, isLater, continues.attempts, audited.attemptCount, continues.retryEpoch,
    audited.retryEpoch, ?_⟩
  intro elsewhere
  exact retryEpoch_of_run reached ran elsewhere (Store.getElem?_histories found)
    (Store.getElem?_histories isLater)

theorem attempts_append_only_settled :
    ∃ job later, recordedSystem.store.jobs[0]? = some job ∧ job.attempts.length = 1 ∧
      settledSystem.store.jobs[0]? = some later ∧
      KeptAt Attempt.Continues job.attempts later.attempts := by
  obtain ⟨job, _, found, _, opened, _⟩ := recordedJob_known
  obtain ⟨later, isLater, kept, _⟩ :=
    attempts_append_only recordedSystem_reached settledSystem_ran found
  exact ⟨job, later, found, opened, isLater, kept⟩

/-! ## The audit of calls -/

/-- The calls of the audit stay what they are, and once they are finished as they ended; each
belongs to an attempt of its job, and no identifier is used twice in the whole database; and
the totals of the audit never fall. -/
theorem invocation_audit_append_only (reached : Reachable (step hashes lease) Initial source)
    (ran : run (step hashes lease) labels source = some final)
    (found : source.store.jobs[id]? = some job) :
    ∃ later, final.store.jobs[id]? = some later ∧
      KeptAt ReviewInvocationRow.Continues job.invocations later.invocations ∧
      (∀ row ∈ later.invocations,
        row.attempt.job = id ∧ row.attempt.number < later.attempts.length) ∧
      (∀ other another, final.store.jobs[other]? = some another →
        ∀ row ∈ later.invocations, ∀ call ∈ another.invocations,
          row.invocation.id = call.invocation.id → other = id ∧ row = call) ∧
      (source.store.invocationTotals id).llmCalls ≤
          (final.store.invocationTotals id).llmCalls ∧
      (source.store.invocationTotals id).toolCalls ≤
          (final.store.invocationTotals id).toolCalls ∧
      (source.store.invocationTotals id).failedCalls ≤
          (final.store.invocationTotals id).failedCalls := by
  obtain ⟨later, isLater, continues, audited⟩ := job_continues reached ran found
  have apart := (audited_of_reachable (reached.extend ran)).apart
  have counted : ∀ (counts : Invocation → Bool),
      (∀ before after : ReviewInvocationRow, before.Continues after →
        counts before.invocation = true → counts after.invocation = true) →
      (job.invocations.map ReviewInvocationRow.invocation).countP counts ≤
        (later.invocations.map ReviewInvocationRow.invocation).countP counts := by
    intro counts monotone
    rw [List.countP_map, List.countP_map]
    exact continues.invocations.countP_le monotone
  unfold Store.invocationTotals
  rw [found, isLater]
  refine ⟨later, rfl, continues.invocations, audited.own, ?_, ?_, ?_, ?_⟩
  · intro other another isOther row member call inside same
    have own : row.invocation.id ∈ later.history.invocationIds :=
      List.mem_map_of_mem member
    have shared : row.invocation.id ∈ another.history.invocationIds := by
      rw [same]
      exact List.mem_map_of_mem inside
    have equal : id = other :=
      apart id other later.history another.history row.invocation.id
        (Store.getElem?_histories isLater) (Store.getElem?_histories isOther) own shared
    rw [← equal] at isOther
    cases isLater.symm.trans isOther
    exact ⟨equal.symm, List.inj_on_of_nodup_map audited.distinct member inside same⟩
  · apply counted
    intro before after continues isCounted
    rw [decide_eq_true_eq] at isCounted ⊢
    rw [continues.kind, isCounted]
  · apply counted
    intro before after continues isCounted
    rw [decide_eq_true_eq] at isCounted ⊢
    rw [continues.kind, isCounted]
  · apply counted
    intro before after continues isCounted
    rw [decide_eq_true_eq] at isCounted
    have same := continues.finished (by rw [isCounted]; exact InvocationStatus.noConfusion)
    rw [same, decide_eq_true_eq]
    exact isCounted

theorem invocation_audit_append_only_settled :
    ∃ job later, recordedSystem.store.jobs[0]? = some job ∧ job.invocations.length = 1 ∧
      settledSystem.store.jobs[0]? = some later ∧
      KeptAt ReviewInvocationRow.Continues job.invocations later.invocations := by
  obtain ⟨job, _, found, _, _, called, _⟩ := recordedJob_known
  obtain ⟨later, isLater, kept, _⟩ :=
    invocation_audit_append_only recordedSystem_reached settledSystem_ran found
  exact ⟨job, later, found, called, isLater, kept⟩

/-! ## Votes -/

/-- The decision of a vote stays, and its account once it is known; its attempts and retries
never fall and its events account for them; and once it is settled it stays settled. -/
theorem vote_never_taken_back (reached : Reachable (step hashes lease) Initial source)
    (ran : run (step hashes lease) labels source = some final)
    (found : source.store.jobs[id]? = some job) {vote : ReviewVote}
    (present : job.vote = some vote) :
    ∃ later after, final.store.jobs[id]? = some later ∧ later.vote = some after ∧
      vote.Continues after ∧ after.Accounted := by
  obtain ⟨later, isLater, continues, audited⟩ := job_continues reached ran found
  obtain ⟨after, isVote, kept⟩ := continues.vote vote present
  exact ⟨later, after, isLater, isVote, kept, audited.vote after isVote⟩

theorem vote_never_taken_back_settled :
    ∃ job vote later after, recordedSystem.store.jobs[0]? = some job ∧
      job.vote = some vote ∧ settledSystem.store.jobs[0]? = some later ∧
      later.vote = some after ∧ vote.Continues after := by
  obtain ⟨job, vote, found, present, _⟩ := recordedJob_known
  obtain ⟨later, after, isLater, isVote, kept, _⟩ :=
    vote_never_taken_back recordedSystem_reached settledSystem_ran found present
  exact ⟨job, vote, later, after, found, present, isLater, isVote, kept⟩

/-! ## Progress -/

/-- A job whose cache may be pruned is never reviewed again. -/
theorem isPrunable_next (calm : source.Calm) (found : source.store.jobs[id]? = some job)
    (prunable : job.isPrunable = true) (label : SystemLabel) :
    ∃ later, (source.next hashes lease label).store.jobs[id]? = some later ∧
      later.isPrunable = true := by
  have ended : job.state = .done ∨ job.state = .superseded := by
    simpa [Job.isPrunable] using prunable
  have terminal : job.state.isTerminal := by
    rcases ended with done | superseded
    · rw [done]
      rfl
    · rw [superseded]
      rfl
  obtain ⟨later, reached, effect⟩ :=
    @terminal_next hashes lease source id job calm found terminal label
  refine ⟨later, reached, ?_⟩
  rcases effect with same | leaves
  · rw [Job.isPrunable, same]
    exact prunable
  · rw [Job.isPrunable]
    generalize later.state = state at leaves
    cases leaves with
    | requeued state failed => simp [failed] at ended
    | revived event policyVersion state managed skipped => simp [skipped] at ended
    | completed worker publication response superseded => rfl

/-- A step takes the progress of a job forward, unless its cache may be pruned. -/
theorem progress_next (found : source.store.jobs[id]? = some job)
    (needed : job.isPrunable = false) (label : SystemLabel) :
    ∃ later, (source.next hashes lease label).store.jobs[id]? = some later ∧
      KeptKeys ReviewProgressRow.Continues job.progress later.progress := by
  by_cases prunes : ∃ retentionDays, label = .prune retentionDays
  · obtain ⟨retentionDays, rfl⟩ := prunes
    refine ⟨job, ?_, growth_progress.keptKeys.refl job.progress⟩
    simp only [next, Store.pruneReviewRecoveryCache, List.getElem?_map, found,
      Option.map_some]
    simp [Job.pruned, needed]
  · push Not at prunes
    obtain ⟨row, reached, _⟩ :=
      next_row hashes lease label (Store.row?_of_getElem? found)
    obtain ⟨later, isLater, _⟩ := Store.row?_eq_some.mp reached
    refine ⟨later, isLater, ?_⟩
    exact (next_recording hashes lease source label).progress prunes
      (Store.getElem?_histories found) (Store.getElem?_histories isLater)

/-- The saved records of a review go forward only, as long as its job is not DONE or SUPERSEDED:
their phase, and once the candidate phase is over what was frozen with it, and once they are
complete their result. -/
theorem progress_never_taken_back (reached : Reachable (step hashes lease) Initial source)
    (ran : run (step hashes lease) labels source = some final) {key : String}
    {old : ReviewProgress} (known : source.store.loadProgress id key = some old) :
    ∃ later, final.store.jobs[id]? = some later ∧
      (later.isPrunable = false → ∃ progress,
        final.store.loadProgress id key = some progress ∧ old.Advances progress) := by
  obtain ⟨job, found, present⟩ := Option.bind_eq_some_iff.mp known
  obtain ⟨first, isFirst, rfl⟩ := Option.map_eq_some_iff.mp present
  have calm : source.Calm := .reachable reached
  -- Either the job is over, or the record is there.
  have both := @run_preserves System SystemLabel (step hashes lease)
    (fun system => system.Calm ∧ ∃ later, system.store.jobs[id]? = some later ∧
      (later.isPrunable = true ∨
        KeptOption ReviewProgressRow.Continues (some first)
          (Dict.get? later.progress key))) labels
    (by
      intro label _ before after kept stepped
      cases stepped
      obtain ⟨calm, later, isLater, holds⟩ := kept
      refine ⟨calm.next, ?_⟩
      cases prunable : later.isPrunable with
      | true =>
          obtain ⟨next_, isNext, ended⟩ :=
            @isPrunable_next hashes lease before id later calm isLater prunable label
          exact ⟨next_, isNext, Or.inl ended⟩
      | false =>
          obtain ⟨next_, isNext, continues⟩ :=
            @progress_next hashes lease before id later isLater prunable label
          rcases holds with ended | there
          · rw [prunable] at ended
            cases ended
          · exact ⟨next_, isNext, Or.inr (growth_progress.kept.trans there (continues key))⟩)
    source final
  have start : KeptOption ReviewProgressRow.Continues (some first)
      (Dict.get? job.progress key) := by
    rw [isFirst]
    exact growth_progress.kept.refl _
  obtain ⟨_, later, isLater, holds⟩ := both ⟨calm, job, found, Or.inr start⟩ ran
  refine ⟨later, isLater, ?_⟩
  intro needed
  rcases holds with ended | there
  · rw [needed] at ended
    cases ended
  · obtain ⟨row, saved, advances⟩ := there first rfl
    refine ⟨row.payload, ?_, advances⟩
    unfold Store.loadProgress
    rw [isLater, Option.bind_some, saved]
    rfl

/-- The cache is cleaned up with no retention at all, and the review is saved again. -/
def cleaningRun : List SystemLabel :=
  [.prune 0, .work "w" (.saveProgress 0 { inputKey := "k", phase := .verification })]

theorem progress_never_taken_back_cleaned :
    ∃ final old progress, run (step Hashes.constant 10) cleaningRun recordedSystem = some final ∧
      recordedSystem.store.loadProgress 0 "k" = some old ∧ old.phase = .candidate ∧
      final.store.loadProgress 0 "k" = some progress ∧ old.Advances progress := by
  have saved : (recordedSystem.store.loadProgress 0 "k").any
      (fun old => old.phase = .candidate) = true := by
    decide +kernel
  obtain ⟨old, known, phase⟩ := (Option.any_eq_true ..).mp saved
  have runs : ((run (step Hashes.constant 10) cleaningRun recordedSystem).bind fun final =>
      (final.store.jobs[0]?).map Job.isPrunable) = some false := by
    decide +kernel
  obtain ⟨final, ran, open_⟩ := Option.bind_eq_some_iff.mp runs
  obtain ⟨later, isLater, advances⟩ :=
    progress_never_taken_back recordedSystem_reached ran known
  rw [isLater] at open_
  obtain ⟨progress, present, advanced⟩ := advances (Option.some.inj open_)
  exact ⟨final, old, progress, ran, known, of_decide_eq_true phase, present, advanced⟩

/-! ## What is published -/

/-- The event of a job, its result, the policy it is bound to and what it asks Gerrit to post
never change once they are there. -/
theorem published_content_fixed (reached : Reachable (step hashes lease) Initial source)
    (ran : run (step hashes lease) labels source = some final)
    (found : source.store.jobs[id]? = some job) :
    ∃ later, final.store.jobs[id]? = some later ∧
      later.eventPayload = job.eventPayload ∧
      later.reviewPolicyVersion = job.reviewPolicyVersion ∧
      (∀ row, job.result = some row → later.result = some row) ∧
      (∀ policy, job.projectReviewPolicy = some (.bound policy) →
        later.projectReviewPolicy = some (.bound policy)) ∧
      ∀ before, job.publication = some before → ∃ after, later.publication = some after ∧
        after.requestPayload = before.requestPayload ∧
        after.publicationFingerprint = before.publicationFingerprint ∧
        after.findingFingerprints = before.findingFingerprints := by
  obtain ⟨later, isLater, continues, _⟩ := job_continues reached ran found
  refine ⟨later, isLater, continues.event, continues.reviewPolicyVersion, ?_, ?_, ?_⟩
  · intro row present
    exact eq_of_kept continues.result present
  · intro policy present
    obtain ⟨column, isColumn, kept⟩ := continues.policy _ present
    rw [kept policy rfl] at isColumn
    exact isColumn
  · intro before present
    obtain ⟨after, isAfter, kept⟩ := continues.publication before present
    exact ⟨after, isAfter, kept.requestPayload, kept.publicationFingerprint,
      kept.findingFingerprints⟩

theorem published_content_fixed_settled :
    ∃ job later, recordedSystem.store.jobs[0]? = some job ∧ job.publication.isSome ∧
      settledSystem.store.jobs[0]? = some later ∧ later.eventPayload = job.eventPayload := by
  obtain ⟨job, _, found, _, _, _, _, published⟩ := recordedJob_known
  obtain ⟨later, isLater, event, _⟩ :=
    published_content_fixed recordedSystem_reached settledSystem_ran found
  exact ⟨job, later, found, published, isLater, event⟩

end PeReview.System
