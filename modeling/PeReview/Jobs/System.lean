import PeReview.Jobs.QueueRefinement
import PeReview.Process.Transition

/-!
# The job store under any number of callers

A transition system whose steps are the transactions of the job store, in any
order and by any workers, over one clock that never runs backwards.  A
transaction that raises leaves the store as it is.
-/

namespace PeReview

open PeReview.Process

structure System where
  store : Store := {}
  now : Time := 0
  /-- History: the jobs that were open after some enqueue. -/
  opened : List JobId := []
  deriving DecidableEq, Repr

inductive SystemLabel
  | tick (elapsed : Time)
  | claim (worker : WorkerId) (locked : List JobId)
  | work (worker : WorkerId) (call : StoreCall)
  | enqueue (event : GerritPatchsetEvent) (policyVersion : String)
  | requeue (id : JobId)
  | upsertProject (project : String) (enabled : Bool)
      (mode : ProjectReviewStartMode) (language : Option String)
      (vote : Option Bool)
  | setProjectEnabled (project : String) (enabled : Bool)
  | setProjectReviewStartMode (project : String) (mode : ProjectReviewStartMode)
  | setProjectReviewPolicy (project language : String) (vote : Bool) (generation : Nat)
  /-- The daily clean-up of the reconciler. -/
  | prune (retentionDays : Nat)
  deriving DecidableEq, Repr

namespace System

def openJobs (store : Store) : List JobId :=
  (store.rowsWhere fun job => !job.state.isTerminal).map Prod.snd

theorem mem_openJobs {store : Store} {id : JobId} :
    id ∈ openJobs store ↔
      ∃ row, store.row? id = some row ∧ row.state.isTerminal = false := by
  simp only [openJobs, List.mem_map, Prod.exists, exists_eq_right]
  constructor
  · rintro ⟨job, member⟩
    obtain ⟨found, opened⟩ := Store.mem_rowsWhere.mp member
    exact ⟨job.row, Store.row?_of_getElem? found, by simpa using opened⟩
  · rintro ⟨row, present, opened⟩
    obtain ⟨job, found, rfl⟩ := Store.row?_eq_some.mp present
    have isOpen : (!job.state.isTerminal) = true := by
      rw [Job.row_state] at opened
      simp [opened]
    exact ⟨job, Store.mem_rowsWhere.mpr ⟨found, isOpen⟩⟩

/-- Commit a transaction, or keep the store when it raised. -/
def commit {Value : Type} (system : System)
    (transaction : Except PyError (Store × Value)) : System :=
  match transaction with
  | .error _ => system
  | .ok (store, _) => { system with store }

/-- Commit an enqueue and note which jobs it leaves open. -/
def commitEnqueue {Value : Type} (system : System)
    (transaction : Except PyError (Store × Value)) : System :=
  match transaction with
  | .error _ => system
  | .ok (store, _) =>
      { system with store, opened := openJobs store ++ system.opened }

section Steps

variable (hashes : Hashes) (lease : Time)

/-- One transaction, or the passing of time. -/
def next : SystemLabel → System → System
  | .tick elapsed, system => { system with now := system.now + elapsed }
  | .claim worker locked, system =>
      { system with
        store := (system.store.claimNext system.now lease worker locked).1 }
  | .work worker call, system =>
      system.commit (call.run hashes system.now lease worker system.store)
  | .enqueue event policyVersion, system =>
      system.commitEnqueue
        (system.store.enqueue system.now event policyVersion)
  | .requeue id, system =>
      system.commit (system.store.requeueFailed system.now id)
  | .upsertProject project enabled mode language vote, system =>
      system.commit
        (system.store.upsertProject system.now project enabled mode language vote)
  | .setProjectEnabled project enabled, system =>
      system.commit (system.store.setProjectEnabled system.now project enabled)
  | .setProjectReviewStartMode project mode, system =>
      system.commit
        (system.store.setProjectReviewStartMode system.now project mode)
  | .setProjectReviewPolicy project language vote generation, system =>
      system.commit
        (system.store.setProjectReviewPolicy system.now project language vote generation)
  | .prune retentionDays, system =>
      { system with
        store := (system.store.pruneReviewRecoveryCache system.now retentionDays).1 }

/-- Every transaction may be called at any time. -/
def step (label : SystemLabel) (system : System) : Option System :=
  some (system.next hashes lease label)

/-- Nothing has been enqueued yet. -/
def Initial (system : System) : Prop :=
  system.store.jobs = [] ∧ system.opened = []

def Claims (system : System) (worker : WorkerId) (locked : List JobId)
    (id : JobId) : Prop :=
  ∃ record,
    (system.store.claimNext system.now lease worker locked).2 = some record ∧
      record.id = id

end Steps

/-- What a step changes on the table: nothing, or what one kind of transaction
may change. -/
inductive Change (lease now : Time) (source target : JobId → Option Row) :
    SystemLabel → Prop
  | none (label : SystemLabel) (same : target = source) :
      Change lease now source target label
  | work (worker : WorkerId) (call : StoreCall) (action : RowAction) (row : Row)
      (acts : call.action = some action)
      (present : source call.job = some row)
      (guarded : action.guard worker now row)
      (written : target call.job = some (action.apply now lease row))
      (others : ∀ other, other ≠ call.job → target other = source other) :
      Change lease now source target (.work worker call)
  | claim (worker : WorkerId) (locked : List JobId) (id : JobId) (row : Row)
      (present : source id = some row) (opened : row.state.isTerminal = false)
      (idle : row.idle now) (resumable : row.Resumable)
      (gated : ∀ other older, source other = some older →
        older.olderThan row → older.recovering = false)
      (written : target id = some (row.claimed worker now lease))
      (others : ∀ other, other ≠ id → target other = source other) :
      Change lease now source target (.claim worker locked)
  /-- A waiting row without a retry state is closed. -/
  | corrupt (worker : WorkerId) (locked : List JobId) (id : JobId) (row : Row)
      (present : source id = some row) (waiting : row.state = .retryWait)
      (unknown : row.retryState = Option.none) (idle : row.idle now)
      (written : target id = some { row with state := .failedPermanent })
      (others : ∀ other, other ≠ id → target other = source other) :
      Change lease now source target (.claim worker locked)
  | enqueue (event : GerritPatchsetEvent) (policyVersion : String) (id : JobId)
      (ordered : Enqueueing source target id) :
      Change lease now source target (.enqueue event policyVersion)
  | requeue (id : JobId) (row : Row) (present : source id = some row)
      (failed : row.state = .failedPermanent)
      (latest : ∀ other newer, source other = some newer →
        ¬row.olderThan newer)
      (written : target id = some row.requeued)
      (others : ∀ other, other ≠ id → target other = source other) :
      Change lease now source target (.requeue id)
  | skip (label : SystemLabel) (skipping : Skipping now source target) :
      Change lease now source target label

section Changes

variable {hashes : Hashes} {lease : Time} {system : System}

theorem commit_store {Value : Type} (source : System)
    (transaction : Except PyError (Store × Value)) :
    (source.commit transaction).store = source.store ∨
      ∃ target value, transaction = .ok (target, value) ∧
        (source.commit transaction).store = target := by
  cases transaction with
  | error raised => exact .inl rfl
  | ok outcome => exact .inr ⟨outcome.1, outcome.2, rfl, rfl⟩

theorem commitEnqueue_store {Value : Type} (source : System)
    (transaction : Except PyError (Store × Value)) :
    (source.commitEnqueue transaction).store = source.store ∧
        (source.commitEnqueue transaction).opened = source.opened ∨
      ∃ target value, transaction = .ok (target, value) ∧
        (source.commitEnqueue transaction).store = target ∧
        (source.commitEnqueue transaction).opened =
          openJobs target ++ source.opened := by
  cases transaction with
  | error raised => exact .inl ⟨rfl, rfl⟩
  | ok outcome => exact .inr ⟨outcome.1, outcome.2, rfl, rfl, rfl⟩

theorem work_change {worker : WorkerId} {call : StoreCall} {target : Store}
    (wrote : Store.Wrote worker system.now lease call.action call.job
      system.store target) :
    Change lease system.now system.store.row? target.row?
      (.work worker call) := by
  rcases wrote with rfl | ⟨job, written, found, rfl, effect⟩
  · exact .none _ rfl
  · rcases effect.row with same | ⟨action, acts, guarded, applied⟩
    · exact .none _ (Store.row?_setJob_of_row_eq found same)
    · refine .work worker call action job.row acts
        (Store.row?_of_getElem? found) guarded ?_ ?_
      · rw [Store.row?_setJob_self found, applied]
      · intro other different
        exact Store.row?_setJob_of_ne found different

theorem claim_change {worker : WorkerId} {locked : List JobId} :
    Change lease system.now system.store.row?
      (system.store.claimNext system.now lease worker locked).1.row?
      (.claim worker locked) := by
  cases ran : system.store.claimNext system.now lease worker locked with
  | mk target record =>
      rcases Store.claimNext_cases ran with
        ⟨rfl, _⟩ | ⟨id, job, written, found, claimable, rfl, outcome⟩
      · exact .none _ rfl
      · obtain ⟨opened, idle, gated⟩ := Store.claimable_iff claimable
        rcases outcome with ⟨waiting, unknown, _, row⟩ | ⟨_, resumable, row⟩
        · refine .corrupt worker locked id job.row
            (Store.row?_of_getElem? found) waiting unknown idle ?_ ?_
          · rw [Store.row?_setJob_self found, row]
          · intro other different
            exact Store.row?_setJob_of_ne found different
        · refine .claim worker locked id job.row (Store.row?_of_getElem? found)
            opened idle resumable gated ?_ ?_
          · rw [Store.row?_setJob_self found, row]
          · intro other different
            exact Store.row?_setJob_of_ne found different

theorem requeue_change {id : JobId} {target : Store} {record : JobRecord}
    (ran : system.store.requeueFailed system.now id = .ok (target, record)) :
    Change lease system.now system.store.row? target.row? (.requeue id) := by
  obtain ⟨job, written, found, rfl, failed, latest, row⟩ :=
    Store.requeueFailed_eq_ok ran
  refine .requeue id job.row (Store.row?_of_getElem? found) failed latest ?_ ?_
  · rw [Store.row?_setJob_self found, row]
  · intro other different
    exact Store.row?_setJob_of_ne found different

/-- Every step of the system is one of the changes of the table. -/
theorem next_change (hashes : Hashes) (lease : Time) (system : System)
    (label : SystemLabel) :
    Change lease system.now system.store.row?
      (system.next hashes lease label).store.row? label := by
  cases label with
  | tick elapsed => exact .none _ rfl
  | claim worker locked => exact claim_change
  | work worker call =>
      rcases commit_store system
          (call.run hashes system.now lease worker system.store)
        with same | ⟨target, value, ran, same⟩
      · exact .none _ (by rw [next, same])
      · rw [next, same]
        exact work_change (StoreCall.run_wrote ran)
  | enqueue event policyVersion =>
      rcases commitEnqueue_store system
          (system.store.enqueue system.now event policyVersion)
        with ⟨same, _⟩ | ⟨target, value, ran, same, _⟩
      · exact .none _ (by rw [next, same])
      · rw [next, same]
        exact .enqueue event policyVersion value.1.id
          (Store.enqueue_enqueueing ran)
  | requeue id =>
      rcases commit_store system
          (system.store.requeueFailed system.now id)
        with same | ⟨target, value, ran, same⟩
      · exact .none _ (by rw [next, same])
      · rw [next, same]
        exact requeue_change ran
  | upsertProject project enabled mode language vote =>
      rcases commit_store system
          (system.store.upsertProject system.now project enabled
            mode language vote)
        with same | ⟨target, value, ran, same⟩
      · exact .none _ (by rw [next, same])
      · rw [next, same]
        exact .skip _ (Store.upsertProject_skipping ran)
  | setProjectEnabled project enabled =>
      rcases commit_store system
          (system.store.setProjectEnabled system.now project
            enabled)
        with same | ⟨target, value, ran, same⟩
      · exact .none _ (by rw [next, same])
      · rw [next, same]
        exact .skip _ (Store.setProjectEnabled_skipping ran)
  | setProjectReviewStartMode project mode =>
      rcases commit_store system
          (system.store.setProjectReviewStartMode system.now
            project mode)
        with same | ⟨target, value, ran, same⟩
      · exact .none _ (by rw [next, same])
      · rw [next, same]
        exact .skip _ (Store.setProjectReviewStartMode_skipping ran)
  | setProjectReviewPolicy project language vote generation =>
      rcases commit_store system
          (system.store.setProjectReviewPolicy system.now project language vote generation)
        with same | ⟨target, value, ran, same⟩
      · exact .none _ (by rw [next, same])
      · rw [next, same]
        exact .none _ (Store.row?_congr (Store.jobs_setProjectReviewPolicy ran))
  | prune retentionDays => exact .none _ Store.row?_pruneReviewRecoveryCache

/-- The clock moves only forwards. -/
theorem now_le_next (label : SystemLabel) :
    system.now ≤ (system.next hashes lease label).now := by
  have committed : ∀ {Value : Type}
      (transaction : Except PyError (Store × Value)),
      (system.commit transaction).now = system.now := by
    intro Value transaction
    cases transaction <;> rfl
  have enqueued : ∀ {Value : Type}
      (transaction : Except PyError (Store × Value)),
      (system.commitEnqueue transaction).now = system.now := by
    intro Value transaction
    cases transaction <;> rfl
  cases label with
  | tick elapsed => exact Nat.le_add_right system.now elapsed
  | claim worker locked => exact Nat.le_refl system.now
  | prune retentionDays => exact Nat.le_refl system.now
  | enqueue event policyVersion => exact Nat.le_of_eq (enqueued _).symm
  | _ => exact Nat.le_of_eq (committed _).symm

@[simp]
theorem commit_opened {Value : Type}
    (transaction : Except PyError (Store × Value)) :
    (system.commit transaction).opened = system.opened := by
  cases transaction <;> rfl

/-- Only an enqueue writes the history. -/
theorem next_opened {label : SystemLabel}
    (elsewhere : ∀ event policyVersion, label ≠ .enqueue event policyVersion) :
    (system.next hashes lease label).opened = system.opened := by
  cases label with
  | enqueue event policyVersion => exact absurd rfl (elsewhere event policyVersion)
  | tick | claim | prune => rfl
  | work | requeue | upsertProject | setProjectEnabled
  | setProjectReviewStartMode | setProjectReviewPolicy => exact commit_opened _

end Changes

end System

end PeReview
