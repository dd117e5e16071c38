import PeReview.Review.Anchors
import PeReview.Review.Native.Synced
import PeReview.Service.Review

/-!
# What is posted again

Which findings of an earlier patch set are posted inline once more: the reviews of a change
are promoted one behind the other, each with the history of those before it.
-/

namespace PeReview

open PeReview.Data PeReview.Native

/-- A review that is neither complete nor within a budget has no findings, and none has more
than are promoted. -/
structure EngineResult (maxFindings : Nat) (review : ReviewResult) : Prop where
  capped : review.findings.length ≤ maxFindings
  tracked : review.reviewMetadata.lineageComplete = some false →
    review.reviewMetadata.reviewBudget = none → review.findings = []

namespace Job

def semanticIds (job : Job) : List String :=
  match job.result with
  | none => []
  | some result => result.findings.map ReviewFinding.semanticId

/-- The result is a baseline for later reviews. -/
def isComplete (job : Job) : Bool :=
  match job.result with
  | none => false
  | some result => result.reviewMetadata.lineageComplete ≠ some false

def inlineIds (maxFindings : Nat) (job : Job) : List String :=
  match job.result with
  | none => []
  | some result =>
      ((findingsForInlinePublication result.toReview).take maxFindings).filterMap
        Finding.semanticId

end Job

def newestComplete (jobs : List Job) : Option Job :=
  (jobs.filter Job.isComplete).getLast?

/-- What the newest complete review found. -/
def baselineIds (jobs : List Job) : List String :=
  match newestComplete jobs with
  | none => []
  | some job => job.semanticIds

/-- A pending job reaches `DONE` with a promoted review. -/
structure Job.Promotes (digest : Digest) (history : FindingHistory) (review : ReviewResult)
    (pending done : Job) : Prop where
  project : done.project = pending.project
  patchset : done.patchsetNumber = pending.patchsetNumber
  result : ∃ policy, done.result =
    some
      (.ofReview digest pending.project
        (reconcileReview digest pending.project history (withPolicyMetadata policy review)))

/-- The reviews of one change that reach `DONE` under one policy version, the earliest patch
set first.  A review is promoted with the history of those before it. -/
inductive ReviewRun (digest : Digest) (maxFindings : Nat) : List Job → Prop
  | nil : ReviewRun digest maxFindings []
  | review {jobs : List Job} {store : Store} {id : JobId} {pending done : Job}
      {history : FindingHistory} {review : ReviewResult}
      (earlier : ReviewRun digest maxFindings jobs)
      (found : store.jobs[id]? = some pending)
      (visible : (store.jobs.filter (Store.isEarlierReview pending)).Perm jobs)
      (loaded : store.loadFindingHistory id = .ok history)
      (returned : EngineResult maxFindings review)
      (promotes : pending.Promotes digest history review done) :
      ReviewRun digest maxFindings (jobs ++ [done])

section Engine

variable {review : NativeReview} {result : ReviewResult} {maxFindings : Nat}

theorem EngineResult.withPolicyMetadata (returned : EngineResult maxFindings result)
    (policy : Option ProjectReviewPolicy) :
    EngineResult maxFindings (withPolicyMetadata policy result) := by
  cases policy with
  | none => exact returned
  | some policy => exact ⟨returned.capped, returned.tracked⟩

end Engine

section Rows

variable {digest : Digest} {project : String} {findings : List Finding} {ordinal : Nat}
  {seen : List String} {row : ReviewFinding}

theorem semanticKey_ensureFingerprint (finding : Finding) :
    (finding.ensureFingerprint digest project).semanticKey digest project =
      finding.semanticKey digest project := by
  unfold Finding.ensureFingerprint
  split
  · rfl
  · unfold Finding.semanticKey Finding.ensureSemanticId
    dsimp only
    split <;> rfl

theorem semanticKey_trackFinding {known : Dict String Finding} (finding : Finding) :
    (trackFinding digest project known seen finding).semanticKey digest project =
      finding.semanticKey digest project := by
  rw [← semanticKey_ensureSemanticId finding]
  unfold trackFinding Finding.semanticKey
  generalize finding.ensureSemanticId digest project = identified
  unfold Finding.ensureSemanticId
  dsimp only
  split <;> rfl

/-- A row has the identifier and the class of a finding. -/
theorem exists_of_mem_findingRows
    (member : row ∈ findingRows digest project ordinal seen findings) :
    ∃ finding ∈ findings, row.semanticId = finding.semanticKey digest project ∧
      row.lineageState = finding.lineage.getD .new := by
  induction findings generalizing ordinal seen with
  | nil =>
      cases member
  | cons finding rest inductionHypothesis =>
      have later : ∀ {ordinal : Nat} {seen : List String},
          row ∈ findingRows digest project ordinal seen rest →
            ∃ other ∈ finding :: rest, row.semanticId = other.semanticKey digest project ∧
              row.lineageState = other.lineage.getD .new := by
        intro ordinal seen isLater
        obtain ⟨other, isIn, same⟩ := inductionHypothesis isLater
        exact ⟨other, List.mem_cons_of_mem finding isIn, same⟩
      rw [findingRows] at member
      split at member
      · exact later member
      · rcases List.mem_cons.mp member with first | others
        · refine ⟨finding, List.mem_cons_self, ?_, ?_⟩
          · rw [first, ensureSemanticId_eq, semanticKey_ensureFingerprint]
            rfl
          · rw [first, ensureSemanticId_eq]
            unfold Finding.ensureFingerprint
            split <;> rfl
        · exact later others

theorem length_findingRows_le :
    (findingRows digest project ordinal seen findings).length ≤ findings.length := by
  induction findings generalizing ordinal seen with
  | nil =>
      exact Nat.le_refl _
  | cons finding rest inductionHypothesis =>
      rw [findingRows]
      split
      · exact Nat.le_succ_of_le inductionHypothesis
      · exact Nat.succ_le_succ inductionHypothesis

end Rows

section Promotion

variable {digest : Digest} {maxFindings : Nat} {jobs : List Job} {store : Store} {id : JobId}
  {pending done : Job} {history : FindingHistory} {review : ReviewResult}
  {semanticId : String}

/-- The identifiers of the samples and of the digests are texts. -/
theorem semanticKey_ne_empty (named : ∀ payload, digest.semanticId payload ≠ "")
    {project : String} (finding : Finding) : finding.semanticKey digest project ≠ "" := by
  unfold Finding.semanticKey Finding.ensureSemanticId
  split
  · rename_i present
    cases known : finding.semanticId with
    | none =>
        rw [known] at present
        cases present
    | some value =>
        rw [known] at present
        exact of_decide_eq_true present
  · exact named _

/-- The rows of a promoted review have identifiers. -/
theorem Job.Promotes.named (promotes : pending.Promotes digest history review done)
    (named : ∀ payload, digest.semanticId payload ≠ "") :
    ∀ semanticId ∈ done.semanticIds, semanticId ≠ "" := by
  intro semanticId member
  obtain ⟨policy, saved⟩ := promotes.result
  unfold Job.semanticIds at member
  rw [saved] at member
  obtain ⟨row, isRow, same⟩ := List.mem_map.mp member
  obtain ⟨finding, _, written, _⟩ := exists_of_mem_findingRows isRow
  rw [← same, written]
  exact semanticKey_ne_empty named finding

theorem ReviewRun.named (run : ReviewRun digest maxFindings jobs)
    (named : ∀ payload, digest.semanticId payload ≠ "") :
    ∀ job ∈ jobs, ∀ semanticId ∈ job.semanticIds, semanticId ≠ "" := by
  induction run with
  | nil =>
      intro job member
      cases member
  | review earlier found visible loaded returned promotes inductionHypothesis =>
      intro job member
      rcases List.mem_append.mp member with old | last
      · exact inductionHypothesis job old
      · rw [List.mem_singleton.mp last]
        exact promotes.named named

/-- The patch sets of a run rise. -/
theorem ReviewRun.pairwise (run : ReviewRun digest maxFindings jobs) :
    jobs.Pairwise fun first second => first.patchsetNumber < second.patchsetNumber := by
  induction run with
  | nil =>
      exact List.Pairwise.nil
  | review earlier found visible loaded returned promotes inductionHypothesis =>
      rw [List.pairwise_append]
      refine ⟨inductionHypothesis, List.pairwise_singleton _ _, ?_⟩
      intro first member second last
      rw [List.mem_singleton.mp last, promotes.patchset]
      have isEarlier := (List.mem_filter.mp (visible.mem_iff.mpr member)).2
      unfold Store.isEarlierReview at isEarlier
      simp only [Bool.and_eq_true, decide_eq_true_eq] at isEarlier
      exact isEarlier.1.2

/-- The baseline of a pending job is the newest complete one of the reviews before it. -/
theorem baselineJob_eq
    (visible : (store.jobs.filter (Store.isEarlierReview pending)).Perm jobs)
    (rising :
      jobs.Pairwise fun first second => first.patchsetNumber < second.patchsetNumber) :
    store.baselineJob pending = newestComplete jobs := by
  have candidates : (store.jobs.filter fun other =>
      Store.isEarlierReview pending other && other.isComplete).Perm
        (jobs.filter Job.isComplete) := by
    have swapped : (store.jobs.filter fun other =>
        Store.isEarlierReview pending other && other.isComplete) =
          (store.jobs.filter (Store.isEarlierReview pending)).filter Job.isComplete := by
      rw [List.filter_filter]
      simp only [Bool.and_comm]
    rw [swapped]
    exact visible.filter _
  have selected : store.baselineJob pending =
      firstBy Job.isMoreRecent (store.jobs.filter fun other =>
        Store.isEarlierReview pending other && other.isComplete) := rfl
  rw [selected]
  unfold newestComplete
  have order := rising.sublist (List.filter_sublist (p := Job.isComplete))
  rcases List.eq_nil_or_concat (jobs.filter Job.isComplete) with none_ | ⟨front, last, listed⟩
  · rw [none_] at candidates ⊢
    rw [candidates.eq_nil]
    rfl
  · rw [List.concat_eq_append] at listed
    rw [listed] at candidates order ⊢
    rw [List.getLast?_concat]
    apply firstBy_eq_some
    · rw [candidates.mem_iff]
      exact List.mem_append_right _ (List.mem_singleton_self _)
    · intro row member different
      have inFront : row ∈ front := by
        rcases List.mem_append.mp (candidates.mem_iff.mp member) with early | isLast
        · exact early
        · exact absurd (List.mem_singleton.mp isLast) different
      have below : row.patchsetNumber < last.patchsetNumber :=
        (List.pairwise_append.mp order).2.2 row inFront last (List.mem_singleton_self _)
      unfold Job.isMoreRecent
      constructor
      · rw [decide_eq_true below, Bool.true_or]
      · rw [decide_eq_false (by omega), decide_eq_false (by omega)]
        rfl

theorem semanticKey_toFinding {project : String} {row : ReviewFinding}
    (nonempty : row.semanticId ≠ "") :
    row.toFinding.semanticKey digest project = row.semanticId :=
  Finding.semanticKey_of_some rfl nonempty

/-- The history of a pending job has the findings of the baseline. -/
theorem exists_previous_iff {project : String} (run : ReviewRun digest maxFindings jobs)
    (named : ∀ payload, digest.semanticId payload ≠ "")
    (found : store.jobs[id]? = some pending)
    (visible : (store.jobs.filter (Store.isEarlierReview pending)).Perm jobs)
    (loaded : store.loadFindingHistory id = .ok history) :
    (∃ finding ∈ history.previousFindings,
        finding.semanticKey digest project = semanticId) ↔
      semanticId ∈ baselineIds jobs := by
  have rows := run.named named
  unfold Store.loadFindingHistory at loaded
  rw [found] at loaded
  have same := Except.ok.inj loaded
  rw [← same]
  dsimp only
  rw [baselineJob_eq visible run.pairwise]
  unfold baselineIds
  cases newest : newestComplete jobs with
  | none =>
      simp
  | some job =>
      have member : job ∈ jobs :=
        List.mem_of_mem_filter (List.mem_of_getLast? newest)
      have identified := rows job member
      rw [Option.bind_some]
      dsimp only
      unfold Job.semanticIds at identified ⊢
      cases saved : job.result with
      | none =>
          simp
      | some result =>
          rw [saved] at identified
          dsimp only at identified ⊢
          constructor
          · intro previous
            obtain ⟨finding, isPrevious, key⟩ := previous
            obtain ⟨row, isRow, written⟩ := List.mem_map.mp isPrevious
            have isNamed := identified row.semanticId (List.mem_map_of_mem isRow)
            rw [← key, ← written, semanticKey_toFinding isNamed]
            exact List.mem_map_of_mem isRow
          · intro listed
            obtain ⟨row, isRow, same⟩ := List.mem_map.mp listed
            have isNamed := identified row.semanticId (List.mem_map_of_mem isRow)
            exact ⟨row.toFinding, List.mem_map_of_mem isRow,
              (semanticKey_toFinding isNamed).trans same⟩

/-- A finding persists if and only if the baseline has it. -/
theorem classifyFinding_eq_persisting {project : String} {findings : List Finding}
    {ids : List String} :
    classifyFinding (previousById digest project findings []) ids semanticId = .persisting ↔
      ∃ finding ∈ findings, finding.semanticKey digest project = semanticId := by
  have known : (Dict.get? (previousById digest project findings []) semanticId).isSome ↔
      ∃ finding ∈ findings, finding.semanticKey digest project = semanticId := by
    rw [isSome_previousById_iff]
    simp
  rw [← known]
  unfold classifyFinding
  split
  · simpa
  · rename_i missing
    simp only [missing]
    split <;> simp

/-- The rows of a promoted review persist if and only if the baseline has their findings. -/
theorem Job.Promotes.persists_iff (promotes : pending.Promotes digest history review done)
    (returned : EngineResult maxFindings review) {result : ReviewResultRow}
    (saved : done.result = some result) {row : ReviewFinding} (member : row ∈ result.findings) :
    row.lineageState = .persisting ↔
      ∃ finding ∈ history.previousFindings,
        finding.semanticKey digest pending.project = row.semanticId := by
  obtain ⟨policy, written⟩ := promotes.result
  have engine := returned.withPolicyMetadata policy
  rw [written] at saved
  rw [← Option.some.inj saved] at member
  obtain ⟨finding, isFinding, identified, classified⟩ := exists_of_mem_findingRows member
  unfold reconcileReview at isFinding
  dsimp only at isFinding
  split at isFinding
  · obtain ⟨original, _, tracked⟩ := List.mem_map.mp isFinding
    have key : (trackFinding digest pending.project
        (previousById digest pending.project history.previousFindings [])
        history.seenSemanticIds original).semanticKey digest pending.project =
          original.semanticKey digest pending.project :=
      semanticKey_trackFinding original
    rw [classified, identified, ← tracked, key]
    exact classifyFinding_eq_persisting
  · rename_i untracked
    rw [Bool.or_eq_true, not_or] at untracked
    have nothing : (withPolicyMetadata policy review).findings = [] := by
      apply engine.tracked
      · cases flag : (withPolicyMetadata policy review).reviewMetadata.lineageComplete with
        | none => simp [flag] at untracked
        | some complete => simpa [flag] using untracked.1
      · simpa using untracked.2
    rw [nothing] at isFinding
    cases isFinding

theorem Job.Promotes.length_le (promotes : pending.Promotes digest history review done)
    (returned : EngineResult maxFindings review) {result : ReviewResultRow}
    (saved : done.result = some result) : result.findings.length ≤ maxFindings := by
  obtain ⟨policy, written⟩ := promotes.result
  rw [written] at saved
  rw [← Option.some.inj saved]
  apply length_findingRows_le.trans
  unfold reconcileReview
  dsimp only
  split
  · unfold reconcileFindingLineage
    dsimp only
    rw [List.length_map]
    exact (returned.withPolicyMetadata policy).capped
  · exact (returned.withPolicyMetadata policy).capped

/-- A review publishes what the newest complete one before it has not found. -/
theorem Job.Promotes.mem_inlineIds (promotes : pending.Promotes digest history review done)
    (returned : EngineResult maxFindings review)
    (baseline : ∀ semanticId, (∃ finding ∈ history.previousFindings,
        finding.semanticKey digest pending.project = semanticId) ↔
      semanticId ∈ baselineIds jobs) :
    semanticId ∈ done.inlineIds maxFindings ↔
      semanticId ∈ done.semanticIds ∧ semanticId ∉ baselineIds jobs := by
  unfold Job.inlineIds Job.semanticIds
  cases saved : done.result with
  | none =>
      simp
  | some result =>
      have short := promotes.length_le returned saved
      have whole : (findingsForInlinePublication result.toReview).take maxFindings =
          findingsForInlinePublication result.toReview := by
        apply List.take_of_length_le
        apply (List.length_filter_le _ _).trans
        unfold ReviewResultRow.toReview
        rw [List.length_map]
        exact short
      have persists : ∀ row ∈ result.findings,
          (row.lineageState = .persisting ↔ row.semanticId ∈ baselineIds jobs) :=
        fun row member => (promotes.persists_iff returned saved member).trans (baseline _)
      dsimp only
      rw [whole, List.mem_filterMap, List.mem_map]
      constructor
      · intro published
        obtain ⟨finding, inline, identified⟩ := published
        obtain ⟨listed, fresh⟩ := List.mem_filter.mp inline
        obtain ⟨row, isRow, written⟩ := List.mem_map.mp listed
        rw [← written] at identified fresh
        have same : row.semanticId = semanticId := Option.some.inj identified
        have open_ : row.lineageState ≠ .persisting := by
          intro persisting
          have class_ : row.toFinding.lineage = some row.lineageState := rfl
          rw [class_, persisting] at fresh
          simp at fresh
        rw [Ne, persists row isRow, same] at open_
        exact ⟨⟨row, isRow, same⟩, open_⟩
      · intro found
        obtain ⟨⟨row, isRow, same⟩, fresh⟩ := found
        have open_ : row.lineageState ≠ .persisting := by
          rw [Ne, persists row isRow, same]
          exact fresh
        refine ⟨row.toFinding, List.mem_filter.mpr ⟨List.mem_map_of_mem isRow, ?_⟩, ?_⟩
        · have class_ : row.toFinding.lineage = some row.lineageState := rfl
          rw [class_]
          simpa using open_
        · rw [← same]
          rfl

end Promotion

section Run

variable {digest : Digest} {maxFindings : Nat} {before between after : List Job}
  {first later job : Job} {semanticId : String}

/-- What a review of a run publishes. -/
theorem ReviewRun.mem_inlineIds {jobs : List Job} (run : ReviewRun digest maxFindings jobs)
    (named : ∀ payload, digest.semanticId payload ≠ "") (split_ : jobs = before ++ job :: after) :
    semanticId ∈ job.inlineIds maxFindings ↔
      semanticId ∈ job.semanticIds ∧ semanticId ∉ baselineIds before := by
  induction run generalizing after with
  | nil =>
      exact absurd split_.symm (by simp)
  | review earlier found visible loaded returned promotes inductionHypothesis =>
      rcases List.eq_nil_or_concat after with isLast | ⟨front, final, isFront⟩
      · rw [isLast] at split_
        obtain ⟨sameFront, sameJob⟩ := List.append_inj' split_ rfl
        cases sameJob
        rw [← sameFront]
        exact promotes.mem_inlineIds returned fun _ =>
          exists_previous_iff earlier named found visible loaded
      · rw [isFront, List.concat_eq_append, ← List.cons_append, ← List.append_assoc] at split_
        exact inductionHypothesis (List.append_inj' split_ rfl).1

theorem newestComplete_append {early late : List Job} :
    newestComplete (early ++ late) = (newestComplete late).or (newestComplete early) := by
  unfold newestComplete
  rw [List.filter_append, List.getLast?_append]

theorem newestComplete_eq_none {jobs : List Job} :
    newestComplete jobs = none ↔ ∀ other ∈ jobs, other.isComplete = false := by
  unfold newestComplete
  rw [List.getLast?_eq_none_iff, List.filter_eq_nil_iff]
  simp only [Bool.not_eq_true]

/-- A later review of a finding that was posted, and that every complete review since has
found, posts it again if and only if it finds it and neither the review that posted it nor
one since is complete: only then is the baseline still the one from before. -/
theorem posted_once_iff (named : ∀ payload, digest.semanticId payload ≠ "")
    (run : ReviewRun digest maxFindings (before ++ first :: between ++ later :: after))
    (posted : semanticId ∈ first.inlineIds maxFindings)
    (contained : ∀ other ∈ between, other.isComplete = true →
      semanticId ∈ other.semanticIds) :
    semanticId ∉ later.inlineIds maxFindings ↔
      first.isComplete = true ∨ (∃ other ∈ between, other.isComplete = true) ∨
        semanticId ∉ later.semanticIds := by
  have isFirst : before ++ first :: between ++ later :: after =
      before ++ first :: (between ++ later :: after) := by
    rw [List.append_assoc, List.cons_append]
  have firstPosts := (run.mem_inlineIds named isFirst).mp posted
  have laterPosts := @ReviewRun.mem_inlineIds digest maxFindings
    (before ++ first :: between) after later semanticId _ run named rfl
  have newest := @newestComplete_append before (first :: between)
  rw [laterPosts, not_and_not_right]
  cases since : newestComplete (first :: between) with
  | none =>
      have same : baselineIds (before ++ first :: between) = baselineIds before := by
        unfold baselineIds
        rw [newest, since]
        rfl
      have incomplete := newestComplete_eq_none.mp since
      rw [List.forall_mem_cons] at incomplete
      rw [same]
      constructor
      · intro found
        by_cases isFound : semanticId ∈ later.semanticIds
        · exact absurd (found isFound) firstPosts.2
        · exact Or.inr (Or.inr isFound)
      · intro condition isFound
        rcases condition with complete | ⟨other, member, complete⟩ | missing
        · rw [incomplete.1] at complete
          cases complete
        · rw [incomplete.2 other member] at complete
          cases complete
        · exact absurd isFound missing
  | some baseline =>
      have isListed := List.mem_of_getLast? since
      obtain ⟨member, complete⟩ := List.mem_filter.mp isListed
      have known : semanticId ∈ baselineIds (before ++ first :: between) := by
        unfold baselineIds
        rw [newest, since]
        rcases List.mem_cons.mp member with isOld | isBetween
        · rw [isOld]
          exact firstPosts.1
        · exact contained baseline isBetween complete
      constructor
      · intro _
        rcases List.mem_cons.mp member with isOld | isBetween
        · rw [isOld] at complete
          exact Or.inl complete
        · exact Or.inr (Or.inl ⟨baseline, isBetween, complete⟩)
      · intro _ _
        exact known

end Run

/-! ## Two patch sets with one finding -/

def samplePending (patchset : Int) : Job :=
  { project := "firmware"
    changeNumber := 1
    patchsetNumber := patchset
    revisionSha := "0123456"
    reviewPolicyVersion := "v1"
    state := .validating
    eventPayload :=
      { project := "firmware"
        changeNumber := 1
        patchsetNumber := patchset
        revisionSha := "0123456" }
    nextAttemptAt := 0
    createdAt := 0 }

def sampleReview (complete : Bool) : ReviewResult :=
  { summary := "one finding"
    findings := [sampleFinding 2 (some "0123456789abcdef0123456789abcdef")]
    reviewMetadata :=
      { lineageComplete := some complete
        reviewBudget :=
          some
            { coverage := { complete }
              complete
              verificationComplete := true
              verificationCandidatesTotal := 1
              verificationCandidatesProcessed := 1
              stopReasons := []
              usage := {} } } }

def sampleIdentifiers : Digest :=
  { sampleDigest with semanticId := fun _ => "0123456789abcdef0123456789abcdef" }

def sampleDone (earlier : List Job) (patchset : Int) (complete : Bool) : Job :=
  match ({ jobs := samplePending patchset :: earlier } : Store).loadFindingHistory 0 with
  | .error _ => samplePending patchset
  | .ok history =>
      { samplePending patchset with
        state := .done
        result :=
          some
            (.ofReview sampleIdentifiers "firmware"
              (reconcileReview sampleIdentifiers "firmware" history (sampleReview complete))) }

theorem run_sampleDone {earlier : List Job} {patchset : Int} {complete : Bool}
    (run : ReviewRun sampleIdentifiers 8 earlier)
    (visible : earlier.filter (Store.isEarlierReview (samplePending patchset)) = earlier) :
    ReviewRun sampleIdentifiers 8 (earlier ++ [sampleDone earlier patchset complete]) := by
  have listed : (({ jobs := samplePending patchset :: earlier } : Store).jobs.filter
      (Store.isEarlierReview (samplePending patchset))).Perm earlier := by
    rw [List.filter_cons_of_neg, visible]
    unfold Store.isEarlierReview
    simp
  have returned : EngineResult 8 (sampleReview complete) := by
    constructor
    · exact Nat.le_add_left 1 7
    · intro _ unbounded
      cases unbounded
  unfold sampleDone
  cases loaded :
      ({ jobs := samplePending patchset :: earlier } : Store).loadFindingHistory 0 with
  | error raised => cases loaded
  | ok history =>
      apply ReviewRun.review run rfl listed loaded returned
      exact ⟨rfl, rfl, none, rfl⟩

/-- Both reviews are complete: the finding is posted once. -/
theorem posted_once_complete :
    "0123456789abcdef0123456789abcdef" ∉
      (sampleDone [sampleDone [] 1 true] 2 true).inlineIds 8 := by
  have run : ReviewRun sampleIdentifiers 8
      ([] ++ sampleDone [] 1 true :: [] ++ sampleDone [sampleDone [] 1 true] 2 true :: []) :=
    run_sampleDone (run_sampleDone .nil rfl) (by decide +kernel)
  have named : ∀ payload, sampleIdentifiers.semanticId payload ≠ "" := by
    intro payload
    unfold sampleIdentifiers
    dsimp only
    decide
  have posted : "0123456789abcdef0123456789abcdef" ∈ (sampleDone [] 1 true).inlineIds 8 := by
    decide +kernel
  have complete : (sampleDone [] 1 true).isComplete = true := by
    decide +kernel
  have nothing : ∀ other ∈ ([] : List Job), other.isComplete = true →
      "0123456789abcdef0123456789abcdef" ∈ other.semanticIds := by
    intro other member
    cases member
  exact (posted_once_iff named run posted nothing).mpr (Or.inl complete)

/-- Neither review is complete: the finding is posted again. -/
theorem posted_twice_incomplete :
    ReviewRun sampleIdentifiers 8
        [sampleDone [] 1 false, sampleDone [sampleDone [] 1 false] 2 false] ∧
      "0123456789abcdef0123456789abcdef" ∈ (sampleDone [] 1 false).inlineIds 8 ∧
      "0123456789abcdef0123456789abcdef" ∈
        (sampleDone [sampleDone [] 1 false] 2 false).inlineIds 8 := by
  refine ⟨run_sampleDone (run_sampleDone .nil rfl) (by decide +kernel), ?_, ?_⟩
  · decide +kernel
  · decide +kernel

end PeReview
