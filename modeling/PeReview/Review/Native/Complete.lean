import PeReview.Review.Native.Synced
import PeReview.Review.Scheduling.Checkpoints

/-!
# What a complete review has looked at

A result that calls its review complete stands on a record whose finished chunks make
up the diff, whose finished batches make up the frozen candidates, and whose
candidates take up every previous finding.
-/

namespace PeReview.Native

open PeReview.Data PeReview.Process PeReview.Scheduling

namespace NativeReview

variable (review : NativeReview)

/-- The chunks of the diff and their pieces. -/
def candidateForest : Forest (WorkItem DiffChunk) String where
  roots := review.candidateItems
  parts item := (splitCandidateWork review.hash item).toOption
  key := WorkItem.key

/-- The batches of the candidates and their halves. -/
def verificationForest (candidates : List Finding) :
    Forest (WorkItem (List Finding)) String where
  roots := verificationWork review.hash review.jsonLength candidates
  parts item := (splitVerificationWork review.hash item).toOption
  key := WorkItem.key

/-- The leaf chunks that are done make up the diff, in its order. -/
def DiffReviewed (progress : ReviewProgress) : Prop :=
  ∃ leaves,
    WorkPool.Finished review.candidateForest .split .done
        (statusOf progress.checkpoints) leaves ∧
      (leaves.flatMap fun item => item.payload.text) = review.context.diff

/-- The leaf batches that are done make up the frozen candidates, in their order. -/
def CandidatesVerified (progress : ReviewProgress) : Prop :=
  ∃ leaves,
    WorkPool.Finished (review.verificationForest progress.frozenCandidates) .split
        .done (statusOf progress.checkpoints) leaves ∧
      (leaves.flatMap fun item => item.payload) = progress.frozenCandidates

/-- Every previous finding is among the candidates, or one with its identifier is. -/
def PreviousIncluded (candidates : List Finding) : Prop :=
  ∀ previous ∈ review.context.previousFindings,
    ∃ candidate ∈ candidates,
      candidate = previous ∨
        truthy previous.semanticId ∧ candidate.semanticId = previous.semanticId

end NativeReview

/-! ## The previous findings -/

theorem mem_includePrevious {findings : List Finding} {previous : Finding}
    (included : List (Option String)) (member : previous ∈ findings) :
    previous ∈ includePrevious findings included ∨
      truthy previous.semanticId ∧
        (previous.semanticId ∈ included ∨
          ∃ candidate ∈ includePrevious findings included,
            candidate.semanticId = previous.semanticId) := by
  induction findings generalizing included with
  | nil =>
      cases member
  | cons finding rest inductionHypothesis =>
      unfold includePrevious
      by_cases named : truthy finding.semanticId
      · rw [if_pos named]
        by_cases known : included.contains finding.semanticId
        · rw [if_pos known]
          rcases List.mem_cons.mp member with rfl | later
          · exact .inr ⟨named, .inl (List.contains_iff_mem.mp known)⟩
          · exact inductionHypothesis included later
        · rw [if_neg known]
          rcases List.mem_cons.mp member with rfl | later
          · exact .inl List.mem_cons_self
          · rcases inductionHypothesis (included ++ [finding.semanticId]) later with
              taken | ⟨truth, before | ⟨candidate, found, same⟩⟩
            · exact .inl (List.mem_cons_of_mem finding taken)
            · rcases List.mem_append.mp before with old | new
              · exact .inr ⟨truth, .inl old⟩
              · refine .inr ⟨truth, .inr ⟨finding, List.mem_cons_self, ?_⟩⟩
                exact (List.mem_singleton.mp new).symm
            · exact
                .inr ⟨truth, .inr ⟨candidate, List.mem_cons_of_mem finding found, same⟩⟩
      · rw [if_neg named]
        rcases List.mem_cons.mp member with rfl | later
        · exact .inl List.mem_cons_self
        · rcases inductionHypothesis included later with
            taken | ⟨truth, before | ⟨candidate, found, same⟩⟩
          · exact .inl (List.mem_cons_of_mem finding taken)
          · exact .inr ⟨truth, .inl before⟩
          · exact
              .inr ⟨truth, .inr ⟨candidate, List.mem_cons_of_mem finding found, same⟩⟩

theorem previousIncluded_freeze (review : NativeReview) (selected : List Finding) :
    review.PreviousIncluded
      (includePreviousCandidates selected review.context.previousFindings) := by
  intro previous member
  unfold includePreviousCandidates
  rcases mem_includePrevious ((selected.map Finding.semanticId).filter truthy)
      member with
    taken | ⟨truth, before | ⟨candidate, found, same⟩⟩
  · exact ⟨previous, List.mem_append_right selected taken, .inl rfl⟩
  · obtain ⟨candidate, found, same⟩ := List.mem_map.mp (List.mem_filter.mp before).1
    exact ⟨candidate, List.mem_append_left _ found, .inr ⟨truth, same⟩⟩
  · exact ⟨candidate, List.mem_append_right selected found, .inr ⟨truth, same⟩⟩

/-! ## The records of a review -/

structure RecordSound (review : NativeReview) (progress : ReviewProgress) : Prop where
  chunks :
    WorkPool.Closed review.candidateForest .split (statusOf progress.checkpoints)
  batches :
    WorkPool.Closed (review.verificationForest progress.frozenCandidates) .split
      (statusOf progress.checkpoints)
  early : progress.phase = .candidate → ∀ identity batch,
    Dict.get? progress.checkpoints (review.hash (.batch identity batch)) = none
  covered : progress.phase ≠ .candidate → progress.coverage.complete →
    review.DiffReviewed progress
  included : progress.phase ≠ .candidate →
    review.PreviousIncluded progress.frozenCandidates
  complete : progress.phase = .complete → ∀ result, progress.result = some result →
    result.reviewMetadata.lineageComplete = some true →
      progress.coverage.complete ∧ review.CandidatesVerified progress

section Records

variable {review : NativeReview}

/-- A forest of which nothing has a status. -/
theorem closed_of_unknown {Payload : Type} {forest : Forest (WorkItem Payload) String}
    {status : String → Option CheckpointStatus}
    (unknown : ∀ path item, forest.Node path item → status (forest.key item) = none) :
    WorkPool.Closed forest .split status := by
  intro path parent parts position part above divides found marked
  exact absurd (unknown _ _ (.part above divides found)) marked

theorem statusOf_eq_none {checkpoints : Dict String WorkCheckpoint} {key : String}
    (absent : Dict.get? checkpoints key = none) : statusOf checkpoints key = none := by
  simp [statusOf, absent]

theorem node_chunk (attempt : Attempt) {path : List Nat} {item : WorkItem DiffChunk}
    (node : review.candidateForest.Node path item) :
    ∃ identity paths text, item.key = review.hash (.chunk identity paths text) := by
  have split : (review.candidateRun attempt).split = splitCandidateWork review.hash :=
    rfl
  exact chunk_of_node split node

theorem node_batch (attempt : Attempt) {progress : ReviewProgress} {path : List Nat}
    {item : WorkItem (List Finding)}
    (node : (review.verificationForest progress.frozenCandidates).Node path item) :
    ∃ identity batch, item.key = review.hash (.batch identity batch) := by
  have split :
      (review.verificationRun attempt progress).split =
        splitVerificationWork review.hash :=
    rfl
  exact batch_of_node split node

/-- A record with nothing on batches can be verified from the beginning. -/
theorem closed_of_early (attempt : Attempt) {progress : ReviewProgress}
    (early : ∀ identity batch,
      Dict.get? progress.checkpoints (review.hash (.batch identity batch)) = none) :
    WorkPool.Closed (review.verificationForest progress.frozenCandidates) .split
      (statusOf progress.checkpoints) := by
  refine closed_of_unknown ?_
  intro path item node
  obtain ⟨identity, batch, key⟩ := node_batch attempt node
  refine statusOf_eq_none ?_
  change Dict.get? progress.checkpoints item.key = none
  rw [key]
  exact early identity batch

theorem recordSound_fresh {progress : ReviewProgress} (fresh : Fresh review progress) :
    RecordSound review progress := by
  have unknown : ∀ key, Dict.get? progress.checkpoints key = none := by
    intro key
    rw [fresh.checkpoints]
    rfl
  refine
    { chunks := closed_of_unknown fun _ _ _ => statusOf_eq_none (unknown _)
      batches := closed_of_unknown fun _ _ _ => statusOf_eq_none (unknown _)
      early := fun _ _ _ => unknown _
      covered := fun later => absurd fresh.stage later
      included := fun later => absurd fresh.stage later
      complete := ?_ }
  intro isOver
  rw [fresh.stage] at isOver
  cases isOver

/-! ## The candidate phase -/

section Candidate

variable {durable : Option ReviewProgress} {phase : PhaseState DiffChunk}

theorem Exploring.resumes (free : CollisionFree review.hash)
    (sound : RecordSound review phase.progress) :
    SchedulerState.Resumes (review.candidateRun phase.attempt) review.candidateItems
      phase.progress.checkpoints where
  distinct := distinct_candidateWork free rfl review.initialChunks
  closed := sound.chunks

/-- The candidate phase gives no checkpoint to a batch. -/
theorem Exploring.early (free : CollisionFree review.hash)
    (sound : RecordSound review phase.progress)
    (exploring : Exploring review durable phase) :
    ∀ identity batch,
      Dict.get? phase.scheduler.checkpoints (review.hash (.batch identity batch)) =
        none := by
  intro identity batch
  have extended := exploring.reached.extends_ (Exploring.resumes free sound)
  rw [extended.frame]
  · exact sound.early exploring.stage identity batch
  · intro path item node same
    obtain ⟨place, paths, text, key⟩ := node_chunk phase.attempt node
    exact free.kind place paths text identity batch (key.symm.trans same)

theorem Exploring.record (free : CollisionFree review.hash)
    (sound : RecordSound review phase.progress)
    (exploring : Exploring review durable phase) :
    RecordSound review phase.record := by
  have early := exploring.early free sound
  refine
    { chunks := (exploring.reached.resumes (Exploring.resumes free sound)).closed
      batches := closed_of_early phase.attempt early
      early := fun _ => early
      covered := fun later => absurd exploring.stage later
      included := fun later => absurd exploring.stage later
      complete := ?_ }
  intro isOver
  have stage : phase.record.phase = .candidate := exploring.stage
  rw [stage] at isOver
  cases isOver

/-- When the candidate phase leaves nothing, it has looked at the whole diff. -/
theorem Exploring.diffReviewed (free : CollisionFree review.hash)
    (sound : RecordSound review phase.progress)
    (exploring : Exploring review durable phase)
    (isOver : phase.scheduler.control = .returned)
    (nothing : phase.scheduler.outcome.pending = []) :
    review.DiffReviewed phase.record := by
  obtain ⟨leaves, finished⟩ :=
    exploring.reached.finished (Exploring.resumes free sound) isOver nothing
  refine ⟨leaves, finished, ?_⟩
  have room : 1 ≤ review.settings.maxDiffChunkChars :=
    (by decide : 1 ≤ 4000).trans review.chunkRoom
  have regroups : ∀ item parts, review.candidateForest.parts item = some parts →
      (parts.flatMap fun part => part.payload.text) = item.payload.text := by
    intro item parts divides
    have same :
        (workForest (review.candidateRun phase.attempt) review.candidateItems).parts
          item = some parts :=
      divides
    exact (divides_splitCandidateWork review.hash).whole item parts (parts_eq_some same)
  calc
    (leaves.flatMap fun item => item.payload.text)
    _ = review.candidateItems.flatMap fun item => item.payload.text :=
      finished.below.flatMap_eq regroups
    _ = review.initialChunks.flatMap DiffChunk.text :=
      candidateWork_text review.hash review.initialChunks
    _ = review.context.diff :=
      (Chunking.chunkDiff_spec review.context.diff room).1

theorem recordSound_frozen (free : CollisionFree review.hash)
    (sound : RecordSound review phase.progress)
    (exploring : Exploring review durable phase) {manifest : ReviewProgress}
    (frozen : Frozen review phase manifest) : RecordSound review manifest := by
  obtain ⟨results, found, stage, inputKey, checkpoints, usage, covers, selected,
    candidates⟩ := freeze_eq_ok frozen.frozen
  have early : ∀ identity batch,
      Dict.get? manifest.checkpoints (review.hash (.batch identity batch)) = none := by
    rw [checkpoints]
    exact exploring.early free sound
  refine
    { chunks := ?_
      batches := closed_of_early phase.attempt early
      early := ?_
      covered := ?_
      included := ?_
      complete := ?_ }
  · rw [checkpoints]
    exact (exploring.reached.resumes (Exploring.resumes free sound)).closed
  · intro before
    rw [stage] at before
    cases before
  · intro _ whole
    have nothing : phase.scheduler.outcome.pending = [] := by
      rw [covers] at whole
      simpa [coverage] using whole
    obtain ⟨leaves, finished, text⟩ :=
      exploring.diffReviewed free sound frozen.isOver nothing
    refine ⟨leaves, ?_, text⟩
    rw [checkpoints]
    exact finished
  · intro _
    rw [candidates]
    exact previousIncluded_freeze review selected
  · intro isOver
    rw [stage] at isOver
    cases isOver

end Candidate

/-! ## The verification phase -/

section Verification

variable {durable : Option ReviewProgress} {phase : PhaseState (List Finding)}

theorem Verifying.resumes (free : CollisionFree review.hash)
    (sound : RecordSound review phase.progress) :
    SchedulerState.Resumes (review.verificationRun phase.attempt phase.progress)
      (review.verificationItems phase.progress) phase.progress.checkpoints where
  distinct :=
    distinct_verificationWork free rfl review.jsonLength
      phase.progress.frozenCandidates
  closed := sound.batches

/-- The verification phase leaves the checkpoints of the chunks alone. -/
theorem Verifying.status_chunk (free : CollisionFree review.hash)
    (sound : RecordSound review phase.progress)
    (verifying : Verifying review durable phase) {path : List Nat}
    {item : WorkItem DiffChunk} (node : review.candidateForest.Node path item) :
    statusOf phase.scheduler.checkpoints (review.candidateForest.key item) =
      statusOf phase.progress.checkpoints (review.candidateForest.key item) := by
  obtain ⟨identity, paths, text, key⟩ := node_chunk phase.attempt node
  have extended := verifying.reached.extends_ (Verifying.resumes free sound)
  have same := extended.frame item.key ?_
  · simp only [statusOf, NativeReview.candidateForest, same]
  · intro place batchItem below other
    obtain ⟨batchIdentity, batch, batchKey⟩ :=
      node_batch phase.attempt below
    exact
      free.kind identity paths text batchIdentity batch
        (key.symm.trans (other.symm.trans batchKey))

theorem Verifying.record (free : CollisionFree review.hash)
    (sound : RecordSound review phase.progress)
    (verifying : Verifying review durable phase) :
    RecordSound review phase.record := by
  have later : phase.progress.phase ≠ .candidate := by
    rw [verifying.stage]
    exact ProgressPhase.noConfusion
  have same : ∀ path item, review.candidateForest.Node path item →
      statusOf phase.record.checkpoints (review.candidateForest.key item) =
        statusOf phase.progress.checkpoints (review.candidateForest.key item) :=
    fun path item node => verifying.status_chunk free sound node
  refine
    { chunks := WorkPool.Closed.congr same sound.chunks
      batches := (verifying.reached.resumes (Verifying.resumes free sound)).closed
      early := fun before => absurd before later
      covered := ?_
      included := fun _ => sound.included later
      complete := ?_ }
  · intro _ whole
    obtain ⟨leaves, finished, text⟩ := sound.covered later whole
    exact ⟨leaves, finished.congr same, text⟩
  · intro isOver
    have stage : phase.record.phase = .verification := verifying.stage
    rw [stage] at isOver
    cases isOver

/-- When the verification phase leaves nothing, it has looked at every candidate. -/
theorem Verifying.candidatesVerified (free : CollisionFree review.hash)
    (sound : RecordSound review phase.progress)
    (verifying : Verifying review durable phase)
    (isOver : phase.scheduler.control = .returned)
    (nothing : phase.scheduler.outcome.pending = []) :
    review.CandidatesVerified phase.record := by
  obtain ⟨leaves, finished⟩ :=
    verifying.reached.finished (Verifying.resumes free sound) isOver nothing
  refine ⟨leaves, finished, ?_⟩
  have regroups : ∀ item parts,
      (review.verificationForest phase.progress.frozenCandidates).parts item =
          some parts →
        (parts.flatMap fun part => part.payload) = item.payload := by
    intro item parts divides
    have same :
        (workForest (review.verificationRun phase.attempt phase.progress)
            (review.verificationItems phase.progress)).parts item = some parts :=
      divides
    exact
      (divides_splitVerificationWork review.hash).whole item parts (parts_eq_some same)
  calc
    (leaves.flatMap fun item => item.payload)
    _ = (review.verificationItems phase.progress).flatMap fun item => item.payload :=
      finished.below.flatMap_eq regroups
    _ = phase.progress.frozenCandidates :=
      verificationWork_findings review.hash review.jsonLength _

/-- A conclusion is complete only if nothing is pending in either phase. -/
theorem complete_conclude {worktree : Worktree} {progress : ReviewProgress}
    {verified : PhaseResult (List Finding)} {usage : Usage} {result : ReviewResult}
    (concluded : conclude review worktree progress verified usage = .ok result)
    (complete : result.reviewMetadata.lineageComplete = some true) :
    progress.coverage.complete ∧ verified.pending = [] := by
  unfold conclude at concluded
  obtain ⟨results, found, rest⟩ := Except.bind_eq_ok.mp concluded
  obtain ⟨validated, accepted, same⟩ := Except.bind_eq_ok.mp rest
  cases same
  simp only [Option.some.injEq, Bool.and_eq_true, List.isEmpty_iff] at complete
  exact ⟨complete.1.1, complete.1.2.1⟩

theorem recordSound_completed (free : CollisionFree review.hash)
    (sound : RecordSound review phase.progress)
    (verifying : Verifying review durable phase) {result : ReviewResult}
    (concluded : Concluded review phase result) :
    RecordSound review
      { phase.record with phase := .complete, result := some result } := by
  have record := verifying.record free sound
  have later : phase.record.phase ≠ .candidate := by
    change phase.progress.phase ≠ .candidate
    rw [verifying.stage]
    exact ProgressPhase.noConfusion
  refine
    { chunks := record.chunks
      batches := record.batches
      early := fun before => by cases before
      covered := fun _ => record.covered later
      included := fun _ => record.included later
      complete := ?_ }
  intro _ other found complete
  cases found
  obtain ⟨conclusion, totals, concludes, rfl⟩ := concluded.concluded
  obtain ⟨covers, nothing⟩ := complete_conclude concludes complete
  exact ⟨covers, verifying.candidatesVerified free sound concluded.isOver nothing⟩

end Verification

end Records

/-! ## Every record the engine saves -/

/-- The record a call goes on from. -/
def EngineControl.base : EngineControl → Option ReviewProgress
  | .opening _ progress => some progress
  | .candidate phase | .freezing phase _ => some phase.progress
  | .verification phase | .counting phase _ | .completing phase _ =>
      some phase.progress
  | .idle | .recovering | .loading _ | .readingLegacy _ | .returned _
  | .raised _ => none

/-- The record in the backend and the one a call goes on from are records of the
review. -/
structure RecordsSound (review : NativeReview) (state : EngineState) : Prop where
  durable : ∀ progress, state.durable = some progress → RecordSound review progress
  base : ∀ progress, state.control.base = some progress → RecordSound review progress

section Steps

variable {review : NativeReview} {backend : Backend} {event : EngineEvent}
  {source target : EngineState}

theorem saves_eq_some {Payload : Type} {phase : PhaseState Payload}
    {progress : ReviewProgress} (saves : phase.saves = some progress) :
    (∃ session closing, phase.scheduler.control = .saving session closing) ∧
      progress = phase.record := by
  unfold PhaseState.saves at saves
  split at saves
  · rename_i session closing saving
    cases saves
    exact ⟨⟨session, closing, saving⟩, rfl⟩
  · cases saves

/-- What the engine saves is a record of the review. -/
theorem recordSound_saves (free : CollisionFree review.hash)
    (synced : Synced review source)
    (base : ∀ progress, source.control.base = some progress →
      RecordSound review progress)
    {progress : ReviewProgress} (saves : source.control.saves = some progress) :
    RecordSound review progress := by
  unfold Synced at synced
  generalize source.control = control at synced base saves
  cases control with
  | opening attempt opened =>
      cases saves
      exact base _ rfl
  | candidate phase =>
      obtain ⟨_, rfl⟩ := saves_eq_some saves
      exact Exploring.record free (base _ rfl) synced
  | freezing phase manifest =>
      cases saves
      exact recordSound_frozen free (base _ rfl) synced.1 synced.2
  | verification phase =>
      obtain ⟨_, rfl⟩ := saves_eq_some saves
      exact Verifying.record free (base _ rfl) synced
  | completing phase result =>
      cases saves
      exact recordSound_completed free (base _ rfl) synced.1 synced.2
  | idle | recovering | loading attempt | readingLegacy attempt
  | counting phase result | returned result | raised error =>
      cases saves

theorem base_silent {control : EngineControl} (silent : control.isSilent review) :
    control.base = none := by
  cases control <;> first | rfl | exact silent.elim

theorem base_resume (attempt : Attempt) {progress other : ReviewProgress}
    (base : (resume review attempt progress).base = some other) :
    other = progress := by
  unfold resume beginVerification at base
  cases stage : progress.phase with
  | candidate | verification =>
      rw [stage] at base
      cases base
      rfl
  | complete =>
      rw [stage] at base
      cases finished : progress.result with
      | none =>
          rw [finished] at base
          cases base
      | some result =>
          rw [finished] at base
          cases base

theorem recordsSound_steps (free : CollisionFree review.hash)
    (synced : Synced review source) (sound : RecordsSound review source)
    (steps : EngineSteps review backend event source target) :
    RecordsSound review target := by
  have saved : ∀ progress, source.control.saves = some progress →
      ∀ other, some progress = some other → RecordSound review other := by
    rintro progress saves other ⟨⟩
    exact recordSound_saves free synced sound.base saves
  cases steps with
  | stop control silent kept =>
      refine ⟨sound.durable, ?_⟩
      intro progress base
      cases (base_silent silent).symm.trans base
  | lose progress control saves accepted silent stored =>
      refine ⟨saved progress saves, ?_⟩
      intro other base
      cases (base_silent silent).symm.trans base
  | recover idle kept | load attempt called idle kept
  | readLegacy attempt stands nothing kept
  | promote progress result known phase finished kept =>
      exact ⟨sound.durable, fun _ base => nomatch base⟩
  | open_ attempt present usage stands kept =>
      refine ⟨sound.durable, ?_⟩
      rintro progress ⟨⟩
      exact recordSound_fresh ⟨rfl, rfl, rfl⟩
  | resume attempt progress stands known phase kept =>
      refine ⟨sound.durable, ?_⟩
      intro other base
      cases base_resume attempt base
      exact sound.durable _ known
  | opened attempt progress stands accepted stored =>
      have saves : source.control.saves = some progress := by
        rw [stands]
        rfl
      refine ⟨saved progress saves, ?_⟩
      intro other base
      cases base_resume attempt base
      exact saved progress saves _ rfl
  | explore phase reply scheduler stands stepped working loops running kept
  | freeze phase reply scheduler manifest stands stepped isOver frozen kept
  | verify phase reply scheduler stands stepped working loops running kept
  | conclude phase reply scheduler result stands stepped isOver concluded kept
  | count phase result totals stands kept =>
      refine ⟨sound.durable, ?_⟩
      intro progress base
      refine sound.base progress ?_
      rw [stands]
      exact base
  | exploreSaved phase session closing stands saving accepted stored
  | verifySaved phase session closing stands saving accepted stored =>
      have saves : source.control.saves = some phase.record := by
        rw [stands]
        exact saves_of_saving saving
      refine ⟨saved _ saves, ?_⟩
      intro progress base
      refine sound.base progress ?_
      rw [stands]
      exact base
  | frozen phase manifest stands accepted stored =>
      have saves : source.control.saves = some manifest := by
        rw [stands]
        rfl
      refine ⟨saved _ saves, ?_⟩
      rintro progress ⟨⟩
      exact saved _ saves _ rfl
  | complete phase result progress stands saves accepted stored =>
      exact ⟨saved _ saves, fun _ base => nomatch base⟩

end Steps

theorem EngineReached.recordsSound {review : NativeReview} {backend : Backend}
    {state : EngineState} (free : CollisionFree review.hash)
    (reached : EngineReached review backend state) :
    Synced review state ∧ RecordsSound review state := by
  refine reached.invariant ?_ ?_
  · exact ⟨fun _ known => (nomatch known), fun _ base => (nomatch base)⟩
  · intro event source target synced sound steps
    exact recordsSound_steps free synced sound steps

/-- Whenever the engine returns a result that calls its review complete, through
whatever crashes and resumptions, the finished leaf chunks of its record make up the
diff, the finished leaf batches make up the frozen candidates, and the candidates
take up every previous finding. -/
theorem completeness_sound {review : NativeReview} {backend : Backend}
    {state : EngineState} {result : ReviewResult} (free : CollisionFree review.hash)
    (reached : EngineReached review backend state)
    (returned : state.control = .returned (some result))
    (complete : result.reviewMetadata.lineageComplete = some true) :
    ∃ progress, state.durable = some progress ∧ progress.result = some result ∧
      review.DiffReviewed progress ∧ review.CandidatesVerified progress ∧
      review.PreviousIncluded progress.frozenCandidates := by
  obtain ⟨synced, sound⟩ := reached.recordsSound free
  simp only [Synced, returned] at synced
  rcases synced with rfl | ⟨progress, known, isOver, finished⟩
  · cases complete
  · have record := sound.durable progress known
    have later : progress.phase ≠ .candidate := by
      rw [isOver]
      exact ProgressPhase.noConfusion
    obtain ⟨covers, verified⟩ := record.complete isOver result finished complete
    exact
      ⟨progress, known, finished, record.covered later covers, verified,
        record.included later⟩

theorem replicate_append_cons_inj {first second : Nat} {left right : List Char}
    (same :
      List.replicate first '1' ++ '.' :: left =
        List.replicate second '1' ++ '.' :: right) :
    first = second ∧ left = right := by
  induction first generalizing second with
  | zero =>
      cases second with
      | zero =>
          exact ⟨rfl, (List.cons.inj same).2⟩
      | succ second =>
          exact absurd (List.cons.inj same).1 (by decide)
  | succ first inductionHypothesis =>
      cases second with
      | zero =>
          exact absurd (List.cons.inj same).1 (by decide)
      | succ second =>
          obtain ⟨counts, rests⟩ := inductionHypothesis (List.cons.inj same).2
          exact ⟨congrArg Nat.succ counts, rests⟩

theorem sampleIdentity_injective : Function.Injective sampleIdentity := by
  have counts : ∀ {head : Char} {first second : Nat},
      head :: List.replicate first '1' = head :: List.replicate second '1' →
        first = second := by
    intro head first second same
    simpa using congrArg List.length same
  intro first second same
  cases first with
  | initial index =>
      cases second with
      | initial other =>
          exact congrArg WorkIdentity.initial (counts same)
      | verification other | split parent other =>
          exact absurd (List.cons.inj same).1 (by decide)
  | verification index =>
      cases second with
      | verification other =>
          exact congrArg WorkIdentity.verification (counts same)
      | initial other | split parent other =>
          exact absurd (List.cons.inj same).1 (by decide)
  | split parent index =>
      cases second with
      | split otherParent other =>
          obtain ⟨rfl, parents⟩ := replicate_append_cons_inj (List.cons.inj same).2
          rw [String.toList_inj.mp parents]
      | initial other | verification other =>
          exact absurd (List.cons.inj same).1 (by decide)

theorem collisionFree_sampleHash : CollisionFree sampleHash where
  identity first second same := by
    cases first <;> cases second <;>
      exact sampleIdentity_injective (List.cons.inj (String.ofList_injective same)).2
  kind first paths text second findings same := by
    exact absurd (List.cons.inj (String.ofList_injective same)).1 (by decide)

def EngineControl.answer : EngineControl → Option ReviewResult
  | .returned result => result
  | _ => none

theorem returned_of_answer {control : EngineControl} {result : ReviewResult}
    (answers : control.answer = some result) : control = .returned (some result) := by
  cases control with
  | returned answer =>
      cases answers
      rfl
  | _ =>
      cases answers

/-- The sample review ends with a complete result. -/
theorem completeness_sound_answered :
    ∃ state result progress,
      run (engineStep sampleReview memoryBackend)
          (.review sampleAttempt :: answeredReview) {} = some state ∧
        state.control = .returned (some result) ∧
        result.reviewMetadata.lineageComplete = some true ∧
        state.durable = some progress ∧ sampleReview.DiffReviewed progress := by
  have answered :
      ((run (engineStep sampleReview memoryBackend)
          (.review sampleAttempt :: answeredReview) {}).bind fun state =>
        state.control.answer.bind fun result =>
          result.reviewMetadata.lineageComplete) = some true := by
    decide +kernel
  obtain ⟨state, ran, found⟩ := Option.bind_eq_some_iff.mp answered
  obtain ⟨result, answers, complete⟩ := Option.bind_eq_some_iff.mp found
  have returned := returned_of_answer answers
  have reached : EngineReached sampleReview memoryBackend state :=
    ⟨{}, _, rfl, ran⟩
  obtain ⟨progress, known, _, reviewed, _⟩ :=
    completeness_sound collisionFree_sampleHash reached returned complete
  exact ⟨state, result, progress, ran, returned, complete, known, reviewed⟩

end PeReview.Native
