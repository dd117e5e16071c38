import PeReview.Data.Sql
import PeReview.Jobs.Store.Basic

/-!
# Queueing and claiming

`enqueue`, `claim_next`, `heartbeat`, `refresh_publish_guard` and
`requeue_failed` of `JobStore`.  The transactions that look at more than one row
of a change hold its advisory lock, so each is one step on the store.
-/

namespace PeReview

open PeReview.Data

inductive PublishGuardStatus
  | ok
  | superseded
  | leaseLost
  deriving DecidableEq, Repr

/-- `JobIdentity` of an event. -/
def Job.hasIdentity (job : Job) (event : GerritPatchsetEvent)
    (policyVersion : String) : Bool :=
  job.project = event.project && job.changeNumber = event.changeNumber &&
    job.revisionSha = event.revisionSha &&
    job.reviewPolicyVersion = policyVersion

/-- The SQL condition of a row in publication recovery. -/
def Job.recoveryCondition (job : Job) : Sql.Truth :=
  Sql.or (some (job.state = .publishing))
    (Sql.and (some (job.state = .retryWait))
      (Sql.eq job.retryState .publishing))

/-- The rows of the same change with a smaller patch-set number that are not
terminal. -/
def Job.openOlder (job older : Job) : Bool :=
  older.sameChange job && older.patchsetNumber < job.patchsetNumber &&
    !older.state.isTerminal

namespace Store

/-- `ManagedProject.project == project`. -/
def managedProject (store : Store) (project : String) : Option ManagedProject :=
  store.projects.find? fun row => row.project = project

def rowsWhere (store : Store) (condition : Job → Bool) : List (Job × JobId) :=
  store.jobs.zipIdx.filter fun row => condition row.1

/-- The newest other patch set of the change. -/
def newerJob (store : Store) (job : Job) : Option JobId :=
  (firstBy (fun row other => row.1.isMoreRecent other.1)
    (store.rowsWhere fun other =>
      other.sameChange job && job.patchsetNumber < other.patchsetNumber)).map
    Prod.snd

/-- One row under the first bulk update of `_apply_patchset_ordering`: an open
older row in publication recovery gets a marker. -/
def markOlder (id : JobId) (job older : Job) : Job :=
  if job.openOlder older && Sql.holds older.recoveryCondition then
    { older with supersededByJobId := some id }
  else older

/-- One row under the second bulk update: other open older rows are closed. -/
def supersedeOlder (id : JobId) (job older : Job) : Job :=
  if job.openOlder older && Sql.holds (Sql.not older.recoveryCondition) then
    { older with
      state := .superseded
      supersededByJobId := some id
      leaseOwner := none
      leaseExpiresAt := none
      retryState := none }
  else older

/-- `_apply_patchset_ordering`. -/
def applyPatchsetOrdering (store : Store) (id : JobId) (job : Job) : Store :=
  if job.state = .skippedScope then store
  else
    match store.newerJob job, job.state.isTerminal with
    | some newer, false =>
        if job.needsPublishRecovery then
          store.setJob id { job with supersededByJobId := some newer }
        else
          store.setJob id
            { job with
              state := .superseded
              supersededByJobId := some newer
              leaseOwner := none
              leaseExpiresAt := none }
    | _, _ =>
        { store with
          jobs :=
            (store.jobs.map (markOlder id job)).map (supersedeOlder id job) }

/-- `FROM_NOW` skips events from before its cutoff. -/
def predatesCutoff (scope : Option ManagedProject)
    (event : GerritPatchsetEvent) : Bool :=
  match scope with
  | none => false
  | some row =>
      row.reviewStartMode = .fromNow &&
        match row.reviewStartAt, event.occurredAt with
        | some start, some occurred => occurred < start
        | _, _ => false

/-- `INCLUDE_OPEN` revives a skipped job. -/
def revives (scope : Option ManagedProject) (job : Job) : Bool :=
  job.state = .skippedScope &&
    match scope with
    | none => false
    | some row => row.enabled && row.reviewStartMode = .includeOpen

/-- The row `_enqueue_insert` inserts. -/
def insertedJob (now : Time) (event : GerritPatchsetEvent)
    (policyVersion : String) (skipped : Bool) : Job :=
  { project := event.project
    changeNumber := event.changeNumber
    patchsetNumber := event.patchsetNumber
    revisionSha := event.revisionSha
    reviewPolicyVersion := policyVersion
    state := if skipped then .skippedScope else .received
    eventPayload := event
    nextAttemptAt := now
    createdAt := now
    lastErrorClass := if skipped then some "ReviewScopeChanged" else none
    lastError :=
      if skipped then
        some ("Skipped because Patch Set predates the project's FROM_NOW " ++
          "review cutoff.")
      else none }

def revivedJob (now : Time) (job : Job) : Job :=
  { job with
    state := .received
    retryState := none
    nextAttemptAt := now
    lastErrorClass := none
    lastError := none }

def identified (store : Store) (event : GerritPatchsetEvent)
    (policyVersion : String) : Option JobId :=
  store.jobs.findIdx? fun job => job.hasIdentity event policyVersion

/-- The end of `enqueue`: order the patch sets and read the row back. -/
def orderAndRead (store : Store) (id : JobId) (job : Job) (created : Bool) :
    Except PyError (Store × (JobRecord × Bool)) :=
  let store := store.applyPatchsetOrdering id job
  match store.get id with
  | none => .error (.runtime "newly enqueued job disappeared")
  | some record => .ok (store, (record, created))

/-- `JobStore.enqueue`. -/
def enqueue (store : Store) (now : Time) (event : GerritPatchsetEvent)
    (policyVersion : String) : Except PyError (Store × (JobRecord × Bool)) :=
  let scope := store.managedProject event.project
  match store.identified event policyVersion with
  | none =>
      let job := insertedJob now event policyVersion (predatesCutoff scope event)
      let inserted := { store with jobs := store.jobs ++ [job] }
      inserted.orderAndRead store.jobs.length job true
  | some id =>
      match store.jobs[id]? with
      | none => .error (.runtime "idempotent enqueue conflict row disappeared")
      | some job =>
          let job := if revives scope job then revivedJob now job else job
          (store.setJob id job).orderAndRead id job false

/-- The `WHERE` clause of `_claim_select`. -/
def claimable (store : Store) (now : Time) (job : Job) : Bool :=
  !job.state.isTerminal &&
    (match job.leaseExpiresAt with
      | none => true
      | some expires => expires ≤ now) &&
    (job.state ≠ .retryWait || job.nextAttemptAt ≤ now) &&
    (store.projects.isEmpty ||
      store.projects.any fun row => row.project = job.project && row.enabled) &&
    !store.jobs.any fun older =>
      older.sameChange job && older.patchsetNumber < job.patchsetNumber &&
        Sql.holds older.recoveryCondition

/-- `ORDER BY next_attempt_at, created_at`. -/
def isDueBefore (job other : Job) : Bool :=
  job.nextAttemptAt < other.nextAttemptAt ||
    (job.nextAttemptAt = other.nextAttemptAt && job.createdAt < other.createdAt)

/-- `_claim_select`.  Rows other transactions have locked are skipped; which they
are, and which of two rows due at once comes first, `locked` leaves open. -/
def claimSelect (store : Store) (now : Time) (locked : List JobId) :
    Option (Job × JobId) :=
  firstBy (fun row other => isDueBefore row.1 other.1)
    ((store.rowsWhere (store.claimable now)).filter
      fun row => !locked.contains row.2)

/-- `JobStore.claim_next`. -/
def claimNext (store : Store) (now lease : Time) (worker : WorkerId)
    (locked : List JobId) : Store × Option JobRecord :=
  match store.claimSelect now locked with
  | none => (store, none)
  | some (job, id) =>
      let leased (job : Job) : Job :=
        { job with
          leaseOwner := some worker
          leaseExpiresAt := some (now + lease) }
      if job.state = .retryWait then
        match job.retryState with
        | none =>
            let job :=
              { job with
                state := .failedPermanent
                lastError := some "RETRY_WAIT job has no retry_state"
                lastErrorClass := some "InvalidPersistedState" }
            (store.setJob id job, none)
        | some resumed =>
            let job := leased { job with state := resumed, retryState := none }
            (store.setJob id job, some (job.record id))
      else
        let job := leased job
        (store.setJob id job, some (job.record id))

/-- `JobStore.heartbeat`. -/
def heartbeat (store : Store) (now lease : Time) (id : JobId)
    (worker : WorkerId) : Store × Bool :=
  match store.jobs[id]? with
  | none => (store, false)
  | some job =>
      if job.live worker now && !job.state.isTerminal then
        (store.setJob id { job with leaseExpiresAt := some (now + lease) }, true)
      else (store, false)

/-- `JobStore.refresh_publish_guard`. -/
def refreshPublishGuard (store : Store) (now lease : Time) (id : JobId)
    (worker : WorkerId) : Store × PublishGuardStatus :=
  match store.jobs[id]? with
  | none => (store, .leaseLost)
  | some job =>
      if job.state ≠ .publishing || !job.live worker now then
        (store, .leaseLost)
      else if store.hasNewer job then (store, .superseded)
      else
        (store.setJob id { job with leaseExpiresAt := some (now + lease) }, .ok)

def requeuedPublication (publication : Publication) : Publication :=
  if publication.status = .failed then
    { publication with
      status := .pending
      lastError := none
      gerritResponse := none
      postedAt := none }
  else publication

def requeueState (job : Job) : JobState :=
  match job.publication with
  | some publication =>
      if publication.status = .posted then .done else .publishing
  | none => if job.result.isSome then .readyToPublish else .received

/-- `JobStore.requeue_failed`. -/
def requeueFailed (store : Store) (now : Time) (id : JobId) :
    Except PyError (Store × JobRecord) :=
  store.onJob id fun job => do
    Except.require (job.state = .failedPermanent)
      (.runtime (s!"job {id} is " ++ job.state.value ++
        "; only FAILED_PERMANENT jobs can be requeued"))
    Except.require (!store.hasNewer job)
      (.runtime s!"job {id} is an older Patch Set and cannot be manually requeued")
    let job :=
      { job with
        state := requeueState job
        publication := job.publication.map requeuedPublication
        retryEpochStartAttempt := job.attemptCount
        retryState := none
        nextAttemptAt := now
        leaseOwner := none
        leaseExpiresAt := none
        lastErrorClass := none
        lastError := none }
    .ok (job, job.record id)

end Store

end PeReview
