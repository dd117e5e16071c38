import Mathlib.Data.List.Sort
import PeReview.Admin.Projects
import PeReview.Gerrit.Events
import PeReview.Jobs.DeliveryOrder
import PeReview.Process.Transition

/-!
# The reconciler

`run_reconciler` of `service.py`, one label for each step at which a pass can fail,
between updates of the changes on the Gerrit side, the other transactions of the
store, and the transactions of the administrators.  These are stamped with the time
they began at, and take effect when they commit.
-/

namespace PeReview

open PeReview.Data

structure LiveChange where
  change : OpenChange
  isOpen : Bool
  updatedAt : Time
  /-- A change is updated when its current revision is created. -/
  ordered : ∀ created ∈ change.revisionCreated, created ≤ updatedAt
  deriving DecidableEq, Repr

structure ReconcilerSettings where
  reconcileIntervalSeconds : Nat := 300
  reconcileFullSweepIntervalSeconds : Nat := 3600
  policyVersion : String
  /-- The uploader the raw change names. -/
  uploader : OpenChange → Option AccountInfo := fun _ => none

inductive AdminOperation
  | upsertProject (project : String) (enabled : Bool)
      (mode : ProjectReviewStartMode) (language : Option String)
      (vote : Option Bool)
  | setProjectEnabled (project : String) (enabled : Bool)
  | setProjectReviewStartMode (project : String) (mode : ProjectReviewStartMode)
  | setProjectReviewPolicy (project language : String) (vote : Bool) (generation : Nat)
  deriving DecidableEq, Repr

namespace AdminOperation

def run (stamp : Time) (store : Store) :
    AdminOperation → Except PyError (Store × ManagedProject)
  | upsertProject project enabled mode language vote =>
      store.upsertProject stamp project enabled mode language vote
  | setProjectEnabled project enabled => store.setProjectEnabled stamp project enabled
  | setProjectReviewStartMode project mode =>
      store.setProjectReviewStartMode stamp project mode
  | setProjectReviewPolicy project language vote generation =>
      store.setProjectReviewPolicy stamp project language vote generation

/-- The start mode of the project, when the operation leaves it enabled and sets its
cutoff or its date.  A policy that changes dates a project; one with a cutoff keeps it. -/
def opens (store : Store) : AdminOperation → Option ProjectReviewStartMode
  | upsertProject _ enabled mode _ _ => if enabled then some mode else none
  | setProjectEnabled project enabled =>
      if enabled then (store.managedProject project).map ManagedProject.reviewStartMode
      else none
  | setProjectReviewStartMode project mode =>
      if (store.managedProject project).any ManagedProject.enabled then some mode
      else none
  | setProjectReviewPolicy project language vote _ =>
      if (store.managedProject project).any fun row =>
          row.enabled && row.reviewStartMode = .includeOpen &&
            !(row.reviewLanguage = language && row.autoCodeReview = vote) then
        some .includeOpen
      else none

def row (store : Store) : AdminOperation → Option ManagedProject
  | upsertProject project _ _ _ _ => store.managedProject (pyStrip project)
  | setProjectEnabled project _ => store.managedProject project
  | setProjectReviewStartMode project _ => store.managedProject project
  | setProjectReviewPolicy project _ _ _ => store.managedProject project

end AdminOperation

/-- `JobStore.advance_service_watermark`. -/
def advanceServiceWatermark (stored : Option Time) (value : Time) : Option Time :=
  match stored with
  | none => some value
  | some current => some (if current < value then value else current)

/-- `ControlStore.enabled_project_scopes`. -/
def Store.enabledProjectScopes (store : Store) : List ManagedProject :=
  (store.projects.filter ManagedProject.enabled).insertionSort fun first second =>
    first.project ≤ second.project

def projectCutoffs (scopes : List ManagedProject) : Dict String (Option Datetime) :=
  scopes.map fun scope =>
    (scope.project,
      if scope.reviewStartMode = .fromNow then
        scope.reviewStartAt.map fun start => { instant := start }
      else none)

/-- The scopes a pass has read, and whether it is a full sweep. -/
structure Sweep where
  started : Time
  scopes : List ManagedProject
  full : Bool
  deriving DecidableEq, Repr

/-- How far the pass has come, with the changes on the server when its query was
answered. -/
inductive Pass
  | idle
  | started (began : Time)
  | querying (sweep : Sweep)
  | enqueueing (sweep : Sweep) (seen : List LiveChange)
      (events : List GerritPatchsetEvent)
  | advanced (sweep : Sweep) (seen : List LiveChange)
  | succeeded (sweep : Sweep) (seen : List LiveChange)
  deriving DecidableEq, Repr

def Pass.sweep? : Pass → Option Sweep
  | idle | started _ | succeeded _ _ => none
  | querying sweep | enqueueing sweep _ _ | advanced sweep _ => some sweep

structure Reconciler where
  store : Store := {}
  now : Time := 0
  changes : List LiveChange := []
  /-- `_RECONCILIATION_WATERMARK_KEY`. -/
  watermark : Option Time := none
  /-- `_RECONCILIATION_FULL_SWEEP_KEY`. -/
  lastFullSweep : Option Time := none
  pass : Pass := .idle
  deriving DecidableEq, Repr

inductive ReconcilerLabel
  | tick (elapsed : Time)
  | update (change : LiveChange)
  | receive (event : GerritPatchsetEvent)
  /-- Another transaction of the store, which keeps the keys of the jobs. -/
  | work (jobs : List Job)
  | admin (stamp : Time) (operation : AdminOperation)
  | begin
  | snapshot
  | answer (changes : List OpenChange)
  | enqueue
  | advance
  | advanceFull
  /-- The pass fails, or is skipped while the service is disabled. -/
  | abandon
  deriving DecidableEq, Repr

namespace Reconciler

variable (settings : ReconcilerSettings)

/-- `overlap`. -/
def overlap : Time :=
  max 60 settings.reconcileIntervalSeconds * 1000000

/-- `full_sweep_due`. -/
def fullSweepDue (lastFullSweep : Option Time) (started : Time)
    (scopes : List ManagedProject) : Bool :=
  match lastFullSweep with
  | none => true
  | some last =>
      last + settings.reconcileFullSweepIntervalSeconds * 1000000 ≤ started ||
        scopes.any fun scope =>
          scope.reviewStartMode = .includeOpen && last < scope.updatedAt

/-- `since`. -/
def since (watermark : Option Time) (full : Bool) : Option Datetime :=
  if full then none
  else watermark.map fun mark => { instant := mark - overlap settings }

def matchesQuery (since : Option Datetime) (scopes : List ManagedProject)
    (live : LiveChange) : Bool :=
  live.isOpen && (scopes.map ManagedProject.project).contains live.change.project &&
    match cutoffSeconds since (some (projectCutoffs scopes)) live.change.project with
    | none => true
    | some seconds => seconds * 1000000 ≤ live.updatedAt

def matching (state : Reconciler) (sweep : Sweep) : List OpenChange :=
  (state.changes.filter
    (matchesQuery (since settings state.watermark sweep.full) sweep.scopes)).map
      LiveChange.change

def put (changes : List LiveChange) (live : LiveChange) : List LiveChange :=
  live :: changes.filter fun other =>
    other.change.changeNumber ≠ live.change.changeNumber

def commit {Value : Type} (state : Reconciler)
    (transaction : Except PyError (Store × Value)) : Reconciler :=
  match transaction with
  | .error _ => state
  | .ok (store, _) => { state with store }

def step : ReconcilerLabel → Reconciler → Option Reconciler
  | .tick elapsed, state => some { state with now := state.now + elapsed }
  | .update live, state =>
      if live.updatedAt = state.now then
        some { state with changes := put state.changes live }
      else none
  | .receive event, state =>
      some (state.commit (state.store.enqueue state.now event settings.policyVersion))
  | .work jobs, state =>
      if jobs.map Job.key = state.store.jobs.map Job.key then
        some { state with store := { state.store with jobs } }
      else none
  | .admin stamp operation, state =>
      if stamp ≤ state.now then some (state.commit (operation.run stamp state.store))
      else none
  | .begin, state =>
      match state.pass with
      | .idle | .succeeded _ _ => some { state with pass := .started state.now }
      | _ => none
  | .snapshot, state =>
      match state.pass with
      | .started started =>
          let scopes := state.store.enabledProjectScopes
          if scopes.isEmpty then some { state with pass := .idle }
          else
            -- The marks are read next; nobody else writes them.
            let full := fullSweepDue settings state.lastFullSweep started scopes
            some { state with pass := .querying { started, scopes, full } }
      | _ => none
  | .answer changes, state =>
      match state.pass with
      | .querying sweep =>
          if changes ⊆ matching settings state sweep ∧
              matching settings state sweep ⊆ changes then
            let events :=
              eventsOfChanges settings.uploader (some (projectCutoffs sweep.scopes))
                changes
            some { state with pass := .enqueueing sweep state.changes events }
          else none
      | _ => none
  | .enqueue, state =>
      match state.pass with
      | .enqueueing sweep seen (event :: rest) =>
          match state.store.enqueue state.now event settings.policyVersion with
          | .error _ => some { state with pass := .idle }
          | .ok (store, _) =>
              some { state with store, pass := .enqueueing sweep seen rest }
      | _ => none
  | .advance, state =>
      match state.pass with
      | .enqueueing sweep seen [] =>
          some
            { state with
              watermark := advanceServiceWatermark state.watermark sweep.started
              pass := if sweep.full then .advanced sweep seen else .succeeded sweep seen }
      | _ => none
  | .advanceFull, state =>
      match state.pass with
      | .advanced sweep seen =>
          some
            { state with
              lastFullSweep := advanceServiceWatermark state.lastFullSweep sweep.started
              pass := .succeeded sweep seen }
      | _ => none
  | .abandon, state => some { state with pass := .idle }

/-- No pass has run yet. -/
structure Initial (state : Reconciler) : Prop where
  distinct : (state.store.projects.map ManagedProject.project).Nodup
  watermark : state.watermark = none
  lastFullSweep : state.lastFullSweep = none
  idle : state.pass = .idle

/-- A project that was open with all its changes before the last full sweep. -/
def sweptBefore (lastFullSweep : Option Time) (row : ManagedProject) : Bool :=
  row.enabled && row.reviewStartMode = .includeOpen &&
    lastFullSweep.any fun mark => row.updatedAt ≤ mark

/-- A sweep has read the project, with all its changes. -/
def includes (sweep : Sweep) (row : ManagedProject) : Bool :=
  sweep.scopes.any fun scope =>
    scope.project = row.project && scope.reviewStartMode = .includeOpen

/-- A commit that leaves a project enabled is not too late for the marks, nor for
the pass that has already read its scopes.  It is never too late for a sweep that has
taken in all changes of the project before. -/
def timely : ReconcilerLabel → Reconciler → Bool
  | .admin stamp operation, state =>
      let dated := state.lastFullSweep.all fun mark => mark < stamp
      match operation.opens state.store with
      | none => true
      | some .includeOpen =>
          (dated || (operation.row state.store).any (sweptBefore state.lastFullSweep)) &&
            state.pass.sweep?.all fun sweep =>
              (dated && (!sweep.full || sweep.started < stamp)) ||
                (operation.row state.store).any (includes sweep)
      | some .fromNow =>
          (state.watermark.all fun mark => mark ≤ stamp + overlap settings) &&
            state.pass.sweep?.all fun sweep => sweep.started ≤ stamp + overlap settings
  | _, _ => true

end Reconciler

end PeReview
