import PeReview.Review.Native.Work
import PeReview.Review.Parsing
import PeReview.Review.Summary
import PeReview.Review.Validator

/-!
# The native review engine

`NativeFirmwareReviewEngine` of `review/native.py`.  The functions first compute what
the engine freezes between its two phases and what it concludes after them; the
transition function then takes the engine from wait to wait, over any number of
attempts on one progress record.
-/

namespace PeReview.Native

open PeReview.Data PeReview.Scheduling

/-- What one attempt at a review brings along: the limits its identity leaves out,
and the worktree. -/
structure Attempt where
  limits : ReviewLimits
  worktree : Worktree

/-- A review: what `_input_key` hashes, and the functions of the engine on it. -/
structure NativeReview where
  context : ReviewContext
  settings : ReviewSettings
  model : String
  inputKey : String
  hash : WorkHash
  digest : Digest
  /-- `len(finding.model_dump_json())`. -/
  jsonLength : Finding → Nat
  casefold : String → String
  candidateMessages : WorkItem DiffChunk → List Message
  /-- `_verification_messages`, with the change summary. -/
  verificationMessages : String → WorkItem (List Finding) → List Message
  /-- `_parse_candidate_review`, of a stage and an answer. -/
  parseCandidateReview : String → String → Except PyError ParsedReview
  parseVerificationReview : String → String → Except PyError ParsedReview
  toolCallKey : ToolCall → Except PyError String
  toolResultFailed : String → Bool
  chunkRoom : 4000 ≤ settings.maxDiffChunkChars

namespace NativeReview

variable (review : NativeReview)

def settingsOf (attempt : Attempt) : ReviewSettings :=
  { review.settings with toReviewLimits := attempt.limits }

def initialChunks : List DiffChunk :=
  Chunking.chunkDiff review.context.diff review.settings.maxDiffChunkChars

def candidateRun (attempt : Attempt) : PhaseRun DiffChunk where
  settings := review.settingsOf attempt
  phase := .candidate
  messages := review.candidateMessages
  parse content item :=
    review.parseCandidateReview
      ("candidate " ++ String.ofList (item.key.toList.take 12)) content
  split := splitCandidateWork review.hash
  maxUnits := attempt.limits.maxCandidateChunks
  toolCallKey := review.toolCallKey
  toolResultFailed := review.toolResultFailed

def verificationRun (attempt : Attempt) (progress : ReviewProgress) :
    PhaseRun (List Finding) where
  settings := review.settingsOf attempt
  phase := .verification
  messages := review.verificationMessages progress.changeSummary
  parse content item :=
    review.parseVerificationReview
      ("verification " ++ String.ofList (item.key.toList.take 12)) content
  split := splitVerificationWork review.hash
  maxUnits := max 1 progress.frozenCandidates.length
  toolCallKey := review.toolCallKey
  toolResultFailed := review.toolResultFailed

def candidateItems : List (WorkItem DiffChunk) :=
  candidateWork review.hash review.initialChunks

def verificationItems (progress : ReviewProgress) : List (WorkItem (List Finding)) :=
  verificationWork review.hash review.jsonLength progress.frozenCandidates

end NativeReview

/-- The charges of the completed and the stopped work of a phase. -/
def checkpointUsage (phase : Phase) (checkpoints : Dict String WorkCheckpoint) :
    Usage :=
  (((Dict.values checkpoints).filter fun checkpoint =>
      checkpoint.phase = phase ∧ checkpoint.status ≠ .split).map
    WorkCheckpoint.usage).sum

def resumedUsage (progress : ReviewProgress) : Usage :=
  match progress.phase with
  | .candidate => checkpointUsage .candidate progress.checkpoints
  | .verification | .complete =>
      progress.candidateUsage + checkpointUsage .verification progress.checkpoints

/-- `model_validate(progress.checkpoints[key].result)`. -/
def resultOf (checkpoints : Dict String WorkCheckpoint) (key : String) :
    Except PyError ParsedReview :=
  match Dict.get? checkpoints key with
  | none => .error { cls := .keyError, message := key }
  | some checkpoint =>
      match checkpoint.result with
      | none => .error (.value "findings: Field required")
      | some result => .ok result

/-! ## What the engine freezes -/

/-- A finding as `_deduplicate_candidates` compares it. -/
def candidateKey (finding : Finding) : Finding :=
  { finding with fingerprint := none, lineage := none }

/-- `_deduplicate_candidates`, with the keys seen so far. -/
def deduplicateCandidates : List Finding → List Finding → List Finding
  | [], _ => []
  | finding :: rest, seen =>
      if seen.contains (candidateKey finding) then deduplicateCandidates rest seen
      else finding :: deduplicateCandidates rest (seen ++ [candidateKey finding])

/-- `_limit_candidates`. -/
def limitCandidates (settings : ReviewSettings) (findings : List Finding) :
    List Finding :=
  (sortFindings findings).take settings.maxCandidateFindingsTotal

/-- The loop of `_include_previous_candidates`, with the identifiers that are
included. -/
def includePrevious : List Finding → List (Option String) → List Finding
  | [], _ => []
  | previous :: rest, included =>
      if truthy previous.semanticId then
        if included.contains previous.semanticId then includePrevious rest included
        else previous :: includePrevious rest (included ++ [previous.semanticId])
      else previous :: includePrevious rest included

/-- `_include_previous_candidates`. -/
def includePreviousCandidates (candidates previousFindings : List Finding) :
    List Finding :=
  candidates ++
    includePrevious previousFindings
      ((candidates.map Finding.semanticId).filter truthy)

/-- `_coverage`. -/
def coverage (context : ReviewContext) (reviewed pending : List DiffChunk) :
    Coverage :=
  let complete := pending.isEmpty
  let reviewedPaths := reviewed.flatMap DiffChunk.paths
  let pendingPaths := pending.flatMap DiffChunk.paths
  let covered (path : String) : Bool :=
    complete || (reviewedPaths.contains path && !pendingPaths.contains path)
  let uncovered := context.changedFiles.filter fun path => !covered path
  { complete
    candidateChunksReviewed := reviewed.length
    candidateChunksTotal := reviewed.length + pending.length
    reviewableFilesFullyReviewed := context.changedFiles.countP covered
    reviewableFilesTotal := context.changedFiles.length
    uncoveredFiles := uncovered.take 100
    uncoveredFilesTruncated := decide (100 < uncovered.length) }

def spokenSummaries (results : List ParsedReview) : List String :=
  (results.map fun result => pyStrip result.summary).filter fun text => text ≠ ""

/-- What the engine does between the candidate phase and the save that freezes its
outcome. -/
def freeze (review : NativeReview) (progress : ReviewProgress)
    (outcome : PhaseResult DiffChunk) : Except PyError ReviewProgress := do
  let results ← outcome.completed.mapM fun item =>
    resultOf progress.checkpoints item.key
  let observed := results.flatMap ParsedReview.findings
  let distinct := deduplicateCandidates observed []
  let selected := limitCandidates review.settings distinct
  .ok
    { progress with
      candidateStats :=
        { observed := observed.length
          distinct := distinct.length
          selected := selected.length
          dropped := distinct.length - selected.length
          reused := outcome.reused
          saved := outcome.saved }
      frozenCandidates :=
        includePreviousCandidates selected review.context.previousFindings
      changeSummary :=
        mergeChangeSummaries review.casefold review.settings.outputLanguage
          (spokenSummaries results) review.context
      coverage :=
        coverage review.context (outcome.completed.map WorkItem.payload)
          (outcome.pending.map WorkItem.payload)
      candidateLimitations :=
        outcome.limitations ++
          if selected.length < distinct.length then
            ["max_candidate_findings_total"]
          else []
      candidateUsage := checkpointUsage .candidate progress.checkpoints
      phase := .verification }

/-! ## What the engine concludes -/

/-- `limits` of the conclusion: why the review is not complete. -/
def stopReasons (review : NativeReview) (progress : ReviewProgress)
    (verified : PhaseResult (List Finding))
    (modelFindings validated findings : List Finding) : List String :=
  let previousIds := review.context.previousFindings.map Finding.semanticId
  let validatedIds := validated.map Finding.semanticId
  let unconfirmed (finding : Finding) : Bool :=
    previousIds.contains finding.semanticId &&
      !validatedIds.contains finding.semanticId
  (progress.candidateLimitations ++ verified.limitations).eraseDups ++
    (if findings.length < validated.length then ["max_findings"] else []) ++
    if modelFindings.any unconfirmed then ["prior_finding_validation_incomplete"]
    else []

/-- What the engine does between the verification phase and the audit totals. -/
def conclude (review : NativeReview) (worktree : Worktree)
    (progress : ReviewProgress) (verified : PhaseResult (List Finding))
    (usage : Usage) : Except PyError ReviewResult := do
  let results ← verified.completed.mapM fun item =>
    resultOf progress.checkpoints item.key
  let modelFindings := results.flatMap ParsedReview.findings
  let validated ←
    validateAll review.settings review.digest review.context worktree modelFindings
  let findings := validated.take review.settings.maxFindings
  let limits := stopReasons review progress verified modelFindings validated findings
  let verificationComplete := verified.pending.isEmpty && verified.limitations.isEmpty
  let complete := progress.coverage.complete && verificationComplete && limits.isEmpty
  let language := review.settings.outputLanguage
  let metadata : BudgetMetadata :=
    { coverage := progress.coverage
      complete
      verificationComplete
      verificationCandidatesTotal := progress.frozenCandidates.length
      verificationCandidatesProcessed :=
        (verified.completed.map fun item => item.payload.length).sum
      stopReasons := limits
      usage }
  let reviewSummary :=
    if validated = [] then noFindingsSummary language complete
    else
      match spokenSummaries results with
      | [summary] => summary
      | _ => fallbackReviewSummary language validated
  .ok
    { summary :=
        renderSummary language progress.changeSummary reviewSummary metadata
      findings
      model := some review.model
      inputTokens := some usage.inputTokens
      outputTokens := some usage.outputTokens
      reviewMetadata :=
        { engine := some progressVersion
          outputLanguage := some language
          lineageComplete := some complete
          diffChunks := some progress.coverage.candidateChunksReviewed
          initialDiffChunks := some review.initialChunks.length
          verificationBatches := some verified.completed.length
          candidateCount := some progress.frozenCandidates.length
          verifiedModelCount := some modelFindings.length
          validatedFindingCount := some validated.length
          publishedCandidateCount :=
            some (min findings.length review.settings.maxFindings)
          changeSummary := some progress.changeSummary
          reviewSummary := some reviewSummary
          reviewBudget := some metadata
          candidateSelection := some progress.candidateStats
          verifierReused := some verified.reused
          verifierSaved := some verified.saved
          legacyUsage := some progress.legacyUsage } }

def skipResult (review : NativeReview) : ReviewResult :=
  let reason := review.context.skipReason.filter fun reason => reason ≠ ""
  { summary := skipSummary review.settings.outputLanguage review.context.skipReason
    model := some review.model
    inputTokens := some 0
    outputTokens := some 0
    reviewMetadata :=
      { engine := some progressVersion
        outputLanguage := some review.settings.outputLanguage
        lineageComplete := some false
        candidateCount := some 0
        verifiedModelCount := some 0
        publishedCandidateCount := some 0
        skippedReason := reason
        skippedNoReviewableText := if reason.isSome then none else some true } }

/-- `context.skip_reason or not context.changed_files or not context.diff.strip()`. -/
def isSkipped (context : ReviewContext) : Bool :=
  truthy context.skipReason || context.changedFiles.isEmpty ||
    context.diff.all isPythonSpace

/-! ## From wait to wait -/

/-- A phase of an attempt: the record and the charges it began with, and its
scheduler. -/
structure PhaseState (Payload : Type) where
  attempt : Attempt
  progress : ReviewProgress
  started : Usage
  scheduler : SchedulerState Payload

def PhaseState.record {Payload : Type} (phase : PhaseState Payload) :
    ReviewProgress :=
  { phase.progress with checkpoints := phase.scheduler.checkpoints }

def PhaseState.saves {Payload : Type} (phase : PhaseState Payload) :
    Option ReviewProgress :=
  match phase.scheduler.control with
  | .saving _ _ => some phase.record
  | _ => none

inductive EngineControl
  | idle
  /-- `recover_completed` loads the progress. -/
  | recovering
  /-- `review` loads the progress. -/
  | loading (attempt : Attempt)
  | readingLegacy (attempt : Attempt)
  /-- Saving a fresh record. -/
  | opening (attempt : Attempt) (progress : ReviewProgress)
  | candidate (phase : PhaseState DiffChunk)
  /-- Saving the outcome of the candidate phase. -/
  | freezing (phase : PhaseState DiffChunk) (progress : ReviewProgress)
  | verification (phase : PhaseState (List Finding))
  /-- Reading the audit totals. -/
  | counting (phase : PhaseState (List Finding)) (result : ReviewResult)
  /-- Saving the result. -/
  | completing (phase : PhaseState (List Finding)) (result : ReviewResult)
  | returned (result : Option ReviewResult)
  | raised (error : PyError)

/-- What happens to an engine.  A save that fails, or during which the engine
crashes, may have been committed. -/
inductive EngineEvent
  | review (attempt : Attempt)
  | recover
  | crash (committed : Bool)
  | loaded
  | legacy (present : Bool) (usage : Usage)
  | totals (totals : InvocationTotals)
  | acknowledged
  | backendFailed (error : PyError) (committed : Bool)
  | phase (reply : Reply) (committed : Bool)

/-- An engine and the progress record of its review in the backend. -/
structure EngineState where
  durable : Option ReviewProgress := none
  control : EngineControl := .idle

/-- A progress backend: which record it lets replace which. -/
abbrev Backend : Type :=
  Option ReviewProgress → ReviewProgress → Bool

def EngineControl.saves : EngineControl → Option ReviewProgress
  | .opening _ progress => some progress
  | .candidate phase => phase.saves
  | .freezing _ progress => some progress
  | .verification phase => phase.saves
  | .completing phase result =>
      some { phase.record with phase := .complete, result := some result }
  | _ => none

namespace EngineState

def commit (backend : Backend) (state : EngineState) : Option EngineState :=
  match state.control.saves with
  | none => some state
  | some progress =>
      if backend state.durable progress then
        some { state with durable := some progress }
      else none

/-- A save fails; the record may have been committed. -/
def lose (backend : Backend) (state : EngineState) (committed : Bool) :
    EngineState :=
  if committed then (state.commit backend).getD state else state

def replied (backend : Backend) (state : EngineState) (reply : Reply)
    (committed : Bool) (control : EngineControl) : Option EngineState :=
  match reply with
  | .acknowledged =>
      (state.commit backend).map fun committed => { committed with control }
  | .backendFailed _ => some { state.lose backend committed with control }
  | _ => some { state with control }

end EngineState

section Steps

variable (review : NativeReview)

def beginVerification (attempt : Attempt) (progress : ReviewProgress)
    (usage : Usage) : EngineControl :=
  .verification
    { attempt
      progress
      started := usage
      scheduler :=
        .start (review.verificationItems progress) usage progress.checkpoints }

/-- `review`, once the progress is loaded or a fresh record is saved. -/
def resume (attempt : Attempt) (progress : ReviewProgress) : EngineControl :=
  let usage := resumedUsage progress
  match progress.phase with
  | .complete =>
      match progress.result with
      | none =>
          .raised (.permanent "completed review progress is missing its result")
      | some result => .returned (some result)
  | .candidate =>
      .candidate
        { attempt
          progress
          started := usage
          scheduler := .start review.candidateItems usage progress.checkpoints }
  | .verification => beginVerification review attempt progress usage

/-- `recover_completed`, once the progress is loaded. -/
def recovered (progress : Option ReviewProgress) : EngineControl :=
  match progress with
  | none => .returned none
  | some progress =>
      if progress.phase ≠ .complete then .returned none
      else
        match progress.result with
        | none =>
            .raised (.permanent "completed review progress is missing its result")
        | some result => .returned (some result)

def afterCandidate (phase : PhaseState DiffChunk) : EngineControl :=
  match phase.scheduler.control with
  | .returned =>
      match freeze review phase.record phase.scheduler.outcome with
      | .error error => .raised error
      | .ok progress => .freezing phase progress
  | .raised error => .raised error
  | _ => .candidate phase

def afterVerification (phase : PhaseState (List Finding)) : EngineControl :=
  match phase.scheduler.control with
  | .returned =>
      match
        conclude review phase.attempt.worktree phase.record phase.scheduler.outcome
          phase.scheduler.usage with
      | .error error => .raised error
      | .ok result => .counting phase result
  | .raised error => .raised error
  | _ => .verification phase

def afterReply (reply : Reply) (control : EngineControl) : Option EngineControl :=
  match control with
  | .candidate phase =>
      (SchedulerState.step (review.candidateRun phase.attempt) reply
        phase.scheduler).map fun scheduler =>
          afterCandidate review { phase with scheduler }
  | .verification phase =>
      (SchedulerState.step (review.verificationRun phase.attempt phase.progress)
        reply phase.scheduler).map fun scheduler =>
          afterVerification review { phase with scheduler }
  | _ => none

/-- What follows an acknowledged save of the engine itself. -/
def afterSave (control : EngineControl) : Option EngineControl :=
  match control with
  | .opening attempt progress => some (resume review attempt progress)
  | .freezing phase progress =>
      some (beginVerification review phase.attempt progress phase.scheduler.usage)
  | .completing _ result => some (.returned (some result))
  | _ => none

def EngineControl.isIdle : EngineControl → Bool
  | .idle | .returned _ | .raised _ => true
  | _ => false

/-- Whether the engine waits for the backend, outside of the scheduler. -/
def EngineControl.awaitsBackend : EngineControl → Bool
  | .recovering | .loading _ | .readingLegacy _ | .opening _ _ | .freezing _ _
  | .counting _ _ | .completing _ _ => true
  | _ => false

def engineStep (backend : Backend) (event : EngineEvent) (state : EngineState) :
    Option EngineState :=
  match event with
  | .review attempt =>
      if state.control.isIdle then
        some
          { state with
            control :=
              if isSkipped review.context then .returned (some (skipResult review))
              else .loading attempt }
      else none
  | .recover =>
      if state.control.isIdle then
        some
          { state with
            control :=
              if isSkipped review.context then .returned none else .recovering }
      else none
  | .crash committed => some { state.lose backend committed with control := .idle }
  | .loaded =>
      match state.control with
      | .recovering => some { state with control := recovered state.durable }
      | .loading attempt =>
          match state.durable with
          | none => some { state with control := .readingLegacy attempt }
          | some progress =>
              some { state with control := resume review attempt progress }
      | _ => none
  | .legacy present usage =>
      match state.control with
      | .readingLegacy attempt =>
          some
            { state with
              control :=
                .opening attempt
                  { inputKey := review.inputKey
                    legacyPresent := present
                    legacyUsage := usage } }
      | _ => none
  | .totals totals =>
      match state.control with
      | .counting phase result =>
          some
            { state with
              control :=
                .completing phase
                  { result with
                    reviewMetadata :=
                      { result.reviewMetadata with actualUsage := some totals } } }
      | _ => none
  | .acknowledged =>
      match afterSave review state.control with
      | none => none
      | some control =>
          (state.commit backend).map fun committed => { committed with control }
  | .backendFailed error committed =>
      if state.control.awaitsBackend then
        some { state.lose backend committed with control := .raised error }
      else none
  | .phase reply committed =>
      match afterReply review reply state.control with
      | none => none
      | some control => state.replied backend reply committed control

end Steps

/-- `MemoryProgressBackend`: every record replaces every other. -/
def memoryBackend : Backend :=
  fun _ _ => true

end PeReview.Native
