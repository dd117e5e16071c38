import Mathlib.Algebra.Ring.Nat
import PeReview.Jobs.Store.Basic

/-!
# The durable progress backend

The transactions of `PostgresProgressBackend` in `jobs/progress.py`.  The backend
raises their exceptions again as `TransientError`, which is left to the worker's
side.
-/

namespace PeReview

open PeReview.Data

/-- What a saved progress record must agree with. -/
def ReviewProgress.admits (old progress : ReviewProgress) :
    Except PyError Unit := do
  Except.require (old.phase.order ≤ progress.phase.order)
    (.runtime "review progress cannot move back to candidate exploration")
  Except.require (old.phase ≠ .complete || old.result = progress.result)
    (.runtime "completed review result is immutable")
  Except.require
    (old.phase = .candidate ||
      (old.frozenCandidates = progress.frozenCandidates &&
        old.candidateUsage = progress.candidateUsage &&
        old.coverage = progress.coverage &&
        old.candidateLimitations = progress.candidateLimitations))
    (.runtime "verification candidate manifest is immutable")

namespace Store

/-- `PostgresProgressBackend.load`. -/
def loadProgress (store : Store) (id : JobId) (inputKey : String) :
    Option ReviewProgress :=
  (store.jobs[id]?).bind fun job =>
    (Dict.get? job.progress inputKey).map ReviewProgressRow.payload

/-- `PostgresProgressBackend.save`. -/
def saveProgress (store : Store) (now : Time) (id : JobId) (worker : WorkerId)
    (progress : ReviewProgress) : Except PyError (Store × Unit) :=
  store.onJob id fun job => do
    job.requireLiveLease id worker now
    match Dict.get? job.progress progress.inputKey with
    | none => pure ()
    | some old => old.payload.admits progress
    .ok
      ({ job with
        progress :=
          Dict.set job.progress progress.inputKey
            { payload := progress, updatedAt := now } }, ())

/-- The attempt is open and belongs to this worker and job. -/
def liveAttempt (store : Store) (id : JobId) (worker : WorkerId)
    (attempt : AttemptId) : Bool :=
  attempt.job = id &&
    match (store.jobs[attempt.job]?).bind fun job => job.attempts[attempt.number]? with
    | none => false
    | some row => row.workerId = worker && row.finishedAt.isNone

/-- The primary key of an invocation is taken by another job. -/
def foreignInvocation (store : Store) (id : JobId) (invocation : String) :
    Bool :=
  store.jobs.zipIdx.any fun row =>
    row.2 ≠ id && row.1.invocations.any fun other =>
      other.invocation.id = invocation

def sameInvocation (row : ReviewInvocationRow) (attempt : AttemptId)
    (invocation : Invocation) : Bool :=
  row.attempt = attempt && row.invocation.inputKey = invocation.inputKey &&
    row.invocation.phase = invocation.phase &&
    row.invocation.workKey = invocation.workKey &&
    row.invocation.kind = invocation.kind

def sameOutcome (row invocation : Invocation) : Bool :=
  row.status = invocation.status && row.inputTokens = invocation.inputTokens &&
    row.outputTokens = invocation.outputTokens && row.error = invocation.error

def updateInvocation (rows : List ReviewInvocationRow)
    (invocation : Invocation) : List ReviewInvocationRow :=
  rows.map fun row =>
    if row.invocation.id = invocation.id then
      { row with
        invocation :=
          { row.invocation with
            status := invocation.status
            inputTokens := invocation.inputTokens
            outputTokens := invocation.outputTokens
            error := invocation.error } }
    else row

/-- `PostgresProgressBackend.record_invocation`. -/
def recordInvocation (store : Store) (now : Time) (id : JobId)
    (worker : WorkerId) (attempt : Option AttemptId) (invocation : Invocation) :
    Except PyError (Store × Unit) :=
  store.onJob id fun job => do
    job.requireLiveLease id worker now
    match attempt with
    | none =>
        .error
          (.runtime "invocation recording requires an active review attempt")
    | some attempt =>
        Except.require (store.liveAttempt id worker attempt)
          (.runtime "invocation requires this worker's live review attempt")
        Except.require (!store.foreignInvocation id invocation.id)
          (.runtime "invocation identity cannot change")
        match job.invocations.find? fun row => row.invocation.id = invocation.id with
        | none =>
            Except.require (invocation.status = .started)
              (.runtime "invocation must be recorded before dispatch")
            .ok
              ({ job with
                invocations := job.invocations ++ [{ invocation, attempt }] }, ())
        | some row =>
            Except.require (sameInvocation row attempt invocation)
              (.runtime "invocation identity cannot change")
            if row.invocation.status ≠ .started then
              Except.require (sameOutcome row.invocation invocation)
                (.runtime "finished invocation cannot be rewritten")
              .ok (job, ())
            else
              .ok
                ({ job with
                  invocations := updateInvocation job.invocations invocation },
                  ())

def coalescedSum (rows : List Invocation) (column : Invocation → Option Nat) :
    Nat :=
  (rows.filterMap column).sum

/-- `PostgresProgressBackend.totals`. -/
def invocationTotals (store : Store) (id : JobId) : InvocationTotals :=
  match store.jobs[id]? with
  | none => {}
  | some job =>
      let rows := job.invocations.map ReviewInvocationRow.invocation
      { llmCalls := rows.countP fun row => row.kind = .llm
        toolCalls := rows.countP fun row => row.kind = .tool
        inputTokens := coalescedSum rows Invocation.inputTokens
        outputTokens := coalescedSum rows Invocation.outputTokens
        failedCalls := rows.countP fun row => row.status = .failed
        unconfirmedCalls := rows.countP fun row => row.status = .started
        llmUsageUnknown :=
          rows.countP fun row => row.kind = .llm && row.inputTokens.isNone }

/-- `PostgresProgressBackend.legacy`. -/
def legacyUsage (store : Store) (id : JobId) : Bool × Usage :=
  match store.jobs[id]? with
  | none => (false, {})
  | some job =>
      let rows := job.chunkCheckpoints.map fun row => row.2.checkpoint
      (!rows.isEmpty,
        (rows.filter fun row => row.status = .done).foldl
          (fun usage row => usage.add row.usage) {})

end Store

end PeReview
