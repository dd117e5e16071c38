import PeReview.Admin.Projects
import PeReview.Jobs.Refinement

/-!
# The queue refines the table

Enqueue, claim, operator requeue and the admin scope changes, as changes of the
rows of the table.
-/

namespace PeReview

open PeReview.Data

namespace Store

/-- The protocol state of a job of the store. -/
def row? (store : Store) (id : JobId) : Option Row :=
  (store.jobs[id]?).map Job.row

theorem row?_eq_some {store : Store} {id : JobId} {row : Row} :
    store.row? id = some row ↔
      ∃ job, store.jobs[id]? = some job ∧ job.row = row := by
  simp [row?]

theorem row?_of_getElem? {store : Store} {id : JobId} {job : Job}
    (found : store.jobs[id]? = some job) :
    store.row? id = some job.row := by
  simp [row?, found]

theorem row?_setJob {store : Store} {id : JobId} {job written : Job}
    (found : store.jobs[id]? = some job) (other : JobId) :
    (store.setJob id written).row? other =
      if other = id then some written.row else store.row? other := by
  have inside : id < store.jobs.length := (List.getElem?_eq_some_iff.mp found).1
  by_cases same : other = id
  · subst same
    simp [row?, setJob, inside]
  · simp [row?, setJob, same, List.getElem?_set_ne (Ne.symm same)]

theorem row?_setJob_self {store : Store} {id : JobId} {job written : Job}
    (found : store.jobs[id]? = some job) :
    (store.setJob id written).row? id = some written.row := by
  rw [row?_setJob found]
  exact if_pos rfl

theorem row?_setJob_of_ne {store : Store} {id other : JobId} {job written : Job}
    (found : store.jobs[id]? = some job) (different : other ≠ id) :
    (store.setJob id written).row? other = store.row? other := by
  rw [row?_setJob found]
  exact if_neg different

/-- A write that keeps the protocol state keeps the table. -/
theorem row?_setJob_of_row_eq {store : Store} {id : JobId} {job written : Job}
    (found : store.jobs[id]? = some job) (same : written.row = job.row) :
    (store.setJob id written).row? = store.row? := by
  funext other
  rw [row?_setJob found]
  split
  · rename_i equal
    rw [equal, same, row?_of_getElem? found]
  · rfl

end Store

section Conditions

@[simp]
theorem Job.row_state (job : Job) : job.row.state = job.state :=
  rfl

theorem Job.holds_recoveryCondition (job : Job) :
    Sql.holds job.recoveryCondition = job.row.recovering := by
  rw [Bool.eq_iff_iff, Row.recovering_iff]
  simp [Job.recoveryCondition, Job.row]

theorem Job.needsPublishRecovery_eq (job : Job) :
    job.needsPublishRecovery = job.row.recovering :=
  rfl

theorem Job.sameChange_iff {job other : Job} :
    job.sameChange other = true ↔ job.row.sameChange other.row := by
  simp [Job.sameChange, Row.sameChange, Job.row]

theorem Job.openOlder_iff {job older : Job} :
    job.openOlder older = true ↔
      older.row.olderThan job.row ∧ older.state.isTerminal = false := by
  simp [Job.openOlder, Job.sameChange_iff, Row.olderThan, Job.row]

theorem Store.hasNewer_eq_false {store : Store} {job : Job}
    (latest : store.hasNewer job = false) {id : JobId} {other : Row}
    (found : store.row? id = some other) :
    ¬job.row.olderThan other := by
  obtain ⟨newer, present, rfl⟩ := Store.row?_eq_some.mp found
  rintro ⟨same, smaller⟩
  have member : newer ∈ store.jobs := List.mem_of_getElem? present
  have contradiction : store.hasNewer job = true := by
    unfold Store.hasNewer
    rw [List.any_eq_true]
    refine ⟨newer, member, ?_⟩
    have sameBack : newer.row.sameChange job.row :=
      ⟨same.1.symm, same.2.symm⟩
    simp only [Bool.and_eq_true, decide_eq_true_eq, Job.sameChange_iff]
    exact ⟨sameBack, smaller⟩
  rw [latest] at contradiction
  cases contradiction

theorem Store.mem_rowsWhere {store : Store} {condition : Job → Bool}
    {job : Job} {id : JobId} :
    (job, id) ∈ store.rowsWhere condition ↔
      store.jobs[id]? = some job ∧ condition job := by
  simp [Store.rowsWhere, List.mk_mem_zipIdx_iff_getElem?]

theorem Store.newerJob_eq_none {store : Store} {job : Job}
    (latest : store.newerJob job = none) {id : JobId} {other : Row}
    (found : store.row? id = some other) :
    ¬job.row.olderThan other := by
  obtain ⟨newer, present, rfl⟩ := Store.row?_eq_some.mp found
  rintro ⟨same, smaller⟩
  have sameBack : newer.row.sameChange job.row := ⟨same.1.symm, same.2.symm⟩
  have member :
      (newer, id) ∈ store.rowsWhere fun other =>
        other.sameChange job &&
          job.patchsetNumber < other.patchsetNumber := by
    refine Store.mem_rowsWhere.mpr ⟨present, ?_⟩
    simp only [Bool.and_eq_true, decide_eq_true_eq, Job.sameChange_iff]
    exact ⟨sameBack, smaller⟩
  simp only [Store.newerJob, Option.map_eq_none_iff, firstBy_eq_none] at latest
  rw [latest] at member
  cases member

end Conditions

structure Enqueueing (source target : JobId → Option Row) (id : JobId) :
    Prop where
  /-- Existing rows change only by supersession or revival. -/
  old : ∀ other row, source other = some row →
    ∃ changed, target other = some changed ∧ row.Enqueued changed
  /-- Only the row of the event can be opened again. -/
  kept : ∀ other row changed, other ≠ id → source other = some row →
    target other = some changed → changed.state.isTerminal = false →
      changed = row
  /-- Recovery is never entered by an enqueue. -/
  resumed : ∀ row, target id = some row → row.recovering →
    source id = some row
  /-- At most the row of the event is new. -/
  fresh : ∀ other row, source other = none → target other = some row →
    other = id ∧ row.Fresh
  /-- An open row with a newer patch set survives only in recovery. -/
  older : ∀ row, target id = some row → row.state.isTerminal = false →
    row.recovering = false →
      ∀ other newer, target other = some newer → ¬row.olderThan newer
  /-- Once the row is open, older patch sets are closed or in recovery. -/
  newer : (∀ other row, source other = some row → row.Resumable) →
    ∀ row, target id = some row → row.state.isTerminal = false →
    (∃ before, source id = some before ∧ before.state.isTerminal = false) ∨
      ∀ other older, target other = some older → older.olderThan row →
        older.state.isTerminal ∨ older.recovering

section Ordering

/-- Outside recovery the negated condition of a resumable row is true. -/
theorem Job.holds_not_recoveryCondition {job : Job}
    (resumable : job.row.Resumable) :
    Sql.holds (Sql.not job.recoveryCondition) = !job.row.recovering := by
  rw [Sql.holds_not]
  by_cases publishing : job.state = .publishing
  · simp [Job.recoveryCondition, Row.recovering, Job.row, publishing, Sql.or]
  · by_cases waiting : job.state = .retryWait
    · cases known : job.retryState with
      | none =>
          exact absurd known (resumable waiting)
      | some resumed =>
          by_cases recovers : resumed = .publishing <;>
            simp [Job.recoveryCondition, Row.recovering, Job.row, waiting, known,
              recovers, Sql.or, Sql.and, Sql.eq]
    · simp [Job.recoveryCondition, Row.recovering, Job.row, publishing, waiting,
        Sql.or, Sql.and]

theorem Store.markOlder_row (id : JobId) (job older : Job) :
    (Store.markOlder id job older).row = older.row := by
  unfold Store.markOlder
  split <;> rfl

/-- What the second bulk update does to one row. -/
theorem Store.supersedeOlder_row (id : JobId) (job older : Job) :
    (Store.supersedeOlder id job older).row = older.row ∨
      (older.state.isTerminal = false ∧ older.row.recovering = false ∧
        (Store.supersedeOlder id job older).row =
          { older.row.release with
            state := .superseded, retryState := none }) := by
  unfold Store.supersedeOlder
  split
  · rename_i selected
    simp only [Bool.and_eq_true] at selected
    obtain ⟨opened, settled⟩ := selected
    right
    refine ⟨(Job.openOlder_iff.mp opened).2, ?_, rfl⟩
    have notRecovering : Sql.holds older.recoveryCondition = false := by
      rw [Sql.holds_not, decide_eq_true_eq] at settled
      rw [settled]
      rfl
    rwa [Job.holds_recoveryCondition] at notRecovering
  · exact .inl rfl

/-- The second bulk update leaves no open older row outside recovery. -/
theorem Store.supersedeOlder_closes {id : JobId} {job older : Job}
    (resumable : older.row.Resumable)
    (before : older.row.olderThan job.row) :
    (Store.supersedeOlder id job older).row.state.isTerminal ∨
      (Store.supersedeOlder id job older).row.recovering := by
  by_cases opened : older.state.isTerminal = false
  · have open' : job.openOlder older := Job.openOlder_iff.mpr ⟨before, opened⟩
    by_cases recovers : older.row.recovering
    · right
      rcases Store.supersedeOlder_row id job older with same | ⟨_, settled, _⟩
      · rw [same]
        exact recovers
      · rw [recovers] at settled
        cases settled
    · left
      have closes : Sql.holds (Sql.not older.recoveryCondition) = true := by
        rw [Job.holds_not_recoveryCondition resumable]
        simpa using recovers
      simp [Store.supersedeOlder, open', closes, Job.row, JobState.isTerminal]
  · left
    have closed : older.state.isTerminal = true := by simpa using opened
    rcases Store.supersedeOlder_row id job older with same | ⟨stillOpen, _, _⟩
    · rw [same]
      exact closed
    · rw [stillOpen] at closed
      cases closed

/-- What the two bulk updates leave of one row. -/
def Store.orderedRow (id : JobId) (job older : Job) : Job :=
  Store.supersedeOlder id job (Store.markOlder id job older)

theorem Store.orderedRow_enqueued (id : JobId) (job older : Job) :
    older.row.Enqueued (Store.orderedRow id job older).row := by
  have marked := Store.markOlder_row id job older
  rcases Store.supersedeOlder_row id job
      (Store.markOlder id job older) with
    same | ⟨opened, settled, closed⟩
  · rw [Store.orderedRow, same, marked]
    exact .keep
  · have openBefore : older.row.state.isTerminal = false := by
      rw [← marked]
      exact opened
    rw [Store.orderedRow, closed, marked]
    rw [marked] at settled
    exact .supersede none (.inr rfl) openBefore settled

theorem Store.orderedRow_closes {id : JobId} {job older : Job}
    (resumable : older.row.Resumable)
    (before : older.row.olderThan job.row) :
    (Store.orderedRow id job older).row.state.isTerminal ∨
      (Store.orderedRow id job older).row.recovering := by
  have marked := Store.markOlder_row id job older
  rw [← marked] at resumable before
  exact Store.supersedeOlder_closes resumable before

/-- A row the bulk updates leave open is unchanged. -/
theorem Store.orderedRow_of_open {id : JobId} {job older : Job}
    (opened : (Store.orderedRow id job older).row.state.isTerminal = false) :
    (Store.orderedRow id job older).row = older.row := by
  have marked := Store.markOlder_row id job older
  rcases Store.supersedeOlder_row id job
      (Store.markOlder id job older) with same | ⟨_, _, closed⟩
  · rw [Store.orderedRow, same, marked]
  · rw [Store.orderedRow, closed] at opened
    cases opened

/-- The bulk updates leave rows alone that are not older. -/
theorem Store.orderedRow_of_not_older {id : JobId} {job older : Job}
    (notOlder : ¬older.row.olderThan job.row) :
    Store.orderedRow id job older = older := by
  have closed : job.openOlder older = false := by
    rw [Bool.eq_false_iff]
    intro opened
    exact notOlder (Job.openOlder_iff.mp opened).1
  simp [Store.orderedRow, Store.supersedeOlder, Store.markOlder, closed]

theorem Row.not_olderThan_self (row : Row) : ¬row.olderThan row :=
  fun older => lt_irrefl _ older.2

/-- The table after `_apply_patchset_ordering` on a row of the store: as it was,
with that row superseded, or with the older rows closed. -/
theorem Store.applyPatchsetOrdering_cases {store : Store} {id : JobId}
    {job : Job} (found : store.jobs[id]? = some job) :
    ((store.applyPatchsetOrdering id job).row? = store.row? ∧
        (job.state = .skippedScope ∨ job.row.recovering)) ∨
      (job.state.isTerminal = false ∧ job.row.recovering = false ∧
        ∀ other, (store.applyPatchsetOrdering id job).row? other =
          if other = id then
            some
              { job.row.release with
                state := .superseded, retryState := job.retryState }
          else store.row? other) ∨
      ((job.state.isTerminal ∨
          ∀ other newer, store.row? other = some newer →
            ¬job.row.olderThan newer) ∧
        ∀ other, (store.applyPatchsetOrdering id job).row? other =
          (store.jobs[other]?).map fun older =>
            (Store.orderedRow id job older).row) := by
  unfold Store.applyPatchsetOrdering
  by_cases skipped : job.state = .skippedScope
  · left
    simp [skipped]
  · simp only [skipped, if_false]
    split
    · rename_i newer _ opened
      split
      · rename_i recovers
        left
        exact ⟨Store.row?_setJob_of_row_eq found rfl, .inr recovers⟩
      · rename_i settled
        right; left
        have notRecovering : job.row.recovering = false := by
          rw [← Job.needsPublishRecovery_eq]
          simpa using settled
        exact ⟨opened, notRecovering, Store.row?_setJob found⟩
    · rename_i other
      right; right
      refine ⟨?_, ?_⟩
      · by_cases closed : job.state.isTerminal
        · exact .inl closed
        · right
          have latest : store.newerJob job = none := by
            by_contra present
            obtain ⟨newer, known⟩ := Option.ne_none_iff_exists'.mp present
            exact other newer known (by simpa using closed)
          intro number newer found
          exact Store.newerJob_eq_none latest found
      · intro number
        simp [Store.row?, Store.orderedRow, Function.comp_def]

inductive Arrived (before : Option Row) : Row → Prop
  | inserted (row : Row) (absent : before = none) (fresh : row.Fresh)
      (arriving : row.state ≠ .superseded) : Arrived before row
  | revived (row : Row) (present : before = some row)
      (skipped : row.state = .skippedScope) :
      Arrived before { row with state := .received, retryState := none }
  | known (row : Row) (present : before = some row) : Arrived before row

theorem Arrived.not_recovering {before : Option Row} {row : Row}
    (arrived : Arrived before row) (recovers : row.recovering) :
    before = some row := by
  cases arrived with
  | inserted row absent fresh arriving =>
      rw [Row.recovering_iff] at recovers
      rcases fresh.state with known | known | known <;> simp [known] at recovers
  | revived row present skipped =>
      simp [Row.recovering] at recovers
  | known row present => exact present

/-- An arrived row is at most a revival of the row that was there. -/
theorem Arrived.enqueued {before row : Row} (arrived : Arrived (some before) row) :
    before.Enqueued row := by
  cases arrived with
  | inserted row absent fresh arriving => cases absent
  | revived row present skipped =>
      cases present
      exact .revive skipped
  | known row present =>
      cases present
      exact .keep

/-- Superseding an arrived row at once. -/
theorem Arrived.superseded {before row : Row}
    (arrived : Arrived (some before) row)
    (opened : row.state.isTerminal = false)
    (settled : row.recovering = false) :
    before.Enqueued
      { row.release with
        state := .superseded, retryState := row.retryState } := by
  cases arrived with
  | inserted _ absent fresh arriving => cases absent
  | revived _ present skipped =>
      cases present
      exact .reviveOlder skipped
  | known _ present =>
      cases present
      exact .supersede before.retryState (.inl rfl) opened settled

theorem Arrived.fresh {before : Option Row} {row : Row}
    (arrived : Arrived before row) (absent : before = none) :
    row.Fresh := by
  cases arrived with
  | inserted _ _ fresh _ => exact fresh
  | revived _ present _ =>
      rw [absent] at present
      cases present
  | known _ present =>
      rw [absent] at present
      cases present

/-- The table of an enqueue, from the arrival of its row to the ordering of the
patch sets. -/
theorem Store.ordering_enqueueing {store : Store} {id : JobId} {job : Job}
    (before : JobId → Option Row) (found : store.jobs[id]? = some job)
    (arrived : Arrived (before id) job.row)
    (others : ∀ other, other ≠ id → store.row? other = before other) :
    Enqueueing before (store.applyPatchsetOrdering id job).row? id := by
  have self : store.row? id = some job.row := Store.row?_of_getElem? found
  rcases Store.applyPatchsetOrdering_cases found with
    ⟨same, kept⟩ | ⟨opened, settled, changed⟩ | ⟨latest, changed⟩
  · rw [same]
    constructor
    · intro other row present
      by_cases equal : other = id
      · subst equal
        rw [present] at arrived
        exact ⟨job.row, self, arrived.enqueued⟩
      · exact ⟨row, by rw [others other equal, present], .keep⟩
    · intro other row changed different present reached _
      rw [others other different, present] at reached
      exact (Option.some.inj reached).symm
    · intro row present recovers
      rw [self] at present
      cases present
      exact arrived.not_recovering recovers
    · intro other row absent present
      by_cases equal : other = id
      · subst equal
        rw [self] at present
        cases present
        exact ⟨rfl, arrived.fresh absent⟩
      · rw [others other equal, absent] at present
        cases present
    · intro row present opened settled
      rw [self] at present
      cases present
      rcases kept with skipped | recovers
      · simp [skipped, JobState.isTerminal] at opened
      · rw [recovers] at settled
        cases settled
    · intro _ row present opened
      rw [self] at present
      cases present
      rcases kept with skipped | recovers
      · simp [skipped, JobState.isTerminal] at opened
      · exact .inl ⟨job.row, arrived.not_recovering recovers, opened⟩
  · have target : (store.applyPatchsetOrdering id job).row? id =
        some
          { job.row.release with
            state := .superseded, retryState := job.retryState } := by
      rw [changed]
      exact if_pos rfl
    constructor
    · intro other row present
      by_cases equal : other = id
      · subst equal
        rw [present] at arrived
        exact ⟨_, target, arrived.superseded opened settled⟩
      · refine ⟨row, ?_, .keep⟩
        rw [changed, if_neg equal, others other equal, present]
    · intro other row after different present reached _
      rw [changed, if_neg different, others other different, present] at reached
      exact (Option.some.inj reached).symm
    · intro row present recovers
      rw [target] at present
      cases present
      simp [Row.recovering] at recovers
    · intro other row absent present
      by_cases equal : other = id
      · subst equal
        rw [target] at present
        cases present
        have fresh := arrived.fresh absent
        exact
          ⟨rfl,
            { state := .inr (.inr rfl)
              retryState := fresh.retryState
              leaseOwner := rfl
              leaseExpiresAt := rfl
              hasResult := fresh.hasResult
              publication := fresh.publication }⟩
      · rw [changed, if_neg equal, others other equal, absent] at present
        cases present
    · intro row present stillOpen
      rw [target] at present
      cases present
      cases stillOpen
    · intro _ row present stillOpen
      rw [target] at present
      cases present
      cases stillOpen
  · have target : (store.applyPatchsetOrdering id job).row? id =
        some job.row := by
      rw [changed, found]
      simp [Store.orderedRow_of_not_older (Row.not_olderThan_self job.row)]
    constructor
    · intro other row present
      by_cases equal : other = id
      · subst equal
        rw [present] at arrived
        exact ⟨job.row, target, arrived.enqueued⟩
      · have inStore : store.row? other = some row := by
          rw [others other equal, present]
        obtain ⟨older, known, rfl⟩ := Store.row?_eq_some.mp inStore
        refine ⟨_, ?_, Store.orderedRow_enqueued id job older⟩
        rw [changed, known]
        rfl
    · intro other row after different present reached opened
      rw [← others other different] at present
      obtain ⟨older, known, rfl⟩ := Store.row?_eq_some.mp present
      rw [changed, known, Option.map_some, Option.some.injEq] at reached
      rw [← reached] at opened ⊢
      exact Store.orderedRow_of_open opened
    · intro row present recovers
      rw [target] at present
      cases present
      exact arrived.not_recovering recovers
    · intro other row absent present
      by_cases equal : other = id
      · subst equal
        rw [target] at present
        cases present
        exact ⟨rfl, arrived.fresh absent⟩
      · have missing : store.row? other = none := by
          rw [others other equal, absent]
        rw [Store.row?, Option.map_eq_none_iff] at missing
        rw [changed, missing] at present
        cases present
    · intro row present opened settled other newer found
      rw [target] at present
      cases present
      rcases latest with closed | latest
      · rw [Job.row_state, closed] at opened
        cases opened
      · rw [changed] at found
        obtain ⟨original, known, rfl⟩ := Option.map_eq_some_iff.mp found
        have sameJob := (Store.orderedRow_enqueued id job original).identity
        rw [Row.olderThan_congr rfl sameJob]
        exact latest other original.row (Store.row?_of_getElem? known)
    · intro resumable row present opened
      rw [target] at present
      cases present
      right
      intro other older reached before
      rw [changed] at reached
      obtain ⟨original, known, rfl⟩ := Option.map_eq_some_iff.mp reached
      have sameJob := (Store.orderedRow_enqueued id job original).identity
      rw [Row.olderThan_congr sameJob rfl] at before
      have different : other ≠ id := by
        rintro rfl
        rw [found] at known
        cases known
        exact Row.not_olderThan_self job.row before
      have inBefore : store.row? other = some original.row :=
        Store.row?_of_getElem? known
      rw [others other different] at inBefore
      exact Store.orderedRow_closes (resumable other _ inBefore) before

end Ordering

section Queue

variable {store target : Store} {now lease : Time} {id : JobId}

theorem Store.insertedJob_fresh (event : GerritPatchsetEvent)
    (policyVersion : String) (skipped : Bool) :
    (Store.insertedJob now event policyVersion skipped).row.Fresh := by
  cases skipped <;> constructor <;> simp [Store.insertedJob, Job.row]

theorem Store.revives_skipped {scope : Option ManagedProject} {job : Job}
    (revived : Store.revives scope job) :
    job.state = .skippedScope := by
  simp only [Store.revives, Bool.and_eq_true, decide_eq_true_eq] at revived
  exact revived.1

theorem Store.orderAndRead_eq_ok {job : Job} {created answer : Bool}
    {record : JobRecord}
    (ran : store.orderAndRead id job created = .ok (target, (record, answer))) :
    target = store.applyPatchsetOrdering id job ∧ record.id = id ∧
      target.get id = some record := by
  simp only [Store.orderAndRead] at ran
  split at ran
  · cases ran
  · rename_i read
    cases ran
    refine ⟨rfl, ?_, read⟩
    obtain ⟨row, _, rfl⟩ := Option.map_eq_some_iff.mp read
    rfl

/-- An enqueue refines the table. -/
theorem Store.enqueue_enqueueing {event : GerritPatchsetEvent}
    {policyVersion : String} {record : JobRecord} {created : Bool}
    (ran : store.enqueue now event policyVersion =
      .ok (target, (record, created))) :
    Enqueueing store.row? target.row? record.id := by
  simp only [Store.enqueue] at ran
  split at ran
  · obtain ⟨rfl, named, _⟩ := Store.orderAndRead_eq_ok ran
    rw [named]
    refine Store.ordering_enqueueing store.row? (by simp) ?_ ?_
    · refine .inserted _ (by simp [Store.row?]) (Store.insertedJob_fresh ..) ?_
      simp only [Store.insertedJob, Job.row]
      split <;> simp
    · intro other different
      by_cases inside : other < store.jobs.length
      · simp [Store.row?, List.getElem?_append_left inside]
      · have outside : store.jobs.length + 1 ≤ other :=
          Nat.lt_of_le_of_ne (Nat.le_of_not_lt inside) (Ne.symm different)
        have absent : store.jobs[other]? = none :=
          List.getElem?_eq_none (Nat.le_of_succ_le outside)
        have beyond : ∀ job, (store.jobs ++ [job])[other]? = none := by
          intro job
          refine List.getElem?_eq_none ?_
          rw [List.length_append, List.length_singleton]
          exact outside
        simp only [Store.row?, absent, beyond]
  · rename_i number _
    split at ran
    · cases ran
    · rename_i job found
      obtain ⟨rfl, named, _⟩ := Store.orderAndRead_eq_ok ran
      rw [named]
      have inside : number < store.jobs.length :=
        (List.getElem?_eq_some_iff.mp found).1
      refine Store.ordering_enqueueing store.row? ?_ ?_ ?_
      · simp [Store.setJob, inside]
      · rw [Store.row?_of_getElem? found]
        split
        · rename_i revived
          exact .revived job.row rfl (Store.revives_skipped revived)
        · exact .known job.row rfl
      · intro other different
        exact Store.row?_setJob_of_ne found different

/-- What a claim does to the store. -/
theorem Store.claimNext_cases {worker : WorkerId} {locked : List JobId}
    {record : Option JobRecord}
    (ran : store.claimNext now lease worker locked = (target, record)) :
    (target = store ∧ record = none) ∨
      ∃ number job written, store.jobs[number]? = some job ∧
        store.claimable now job ∧ target = store.setJob number written ∧
        (job.state = .retryWait ∧ job.retryState = none ∧ record = none ∧
            written.row = { job.row with state := .failedPermanent } ∨
          record = some (written.record number) ∧
            job.row.Resumable ∧
            written.row = job.row.claimed worker now lease) := by
  unfold Store.claimNext at ran
  split at ran
  · cases ran
    exact .inl ⟨rfl, rfl⟩
  · rename_i job number selected
    right
    have member := List.mem_of_mem_filter (firstBy_mem selected)
    obtain ⟨found, claimable⟩ := Store.mem_rowsWhere.mp member
    split at ran
    · rename_i waiting
      split at ran
      · rename_i unknown
        cases ran
        exact ⟨number, job, _, found, claimable, rfl,
          .inl ⟨waiting, unknown, rfl, rfl⟩⟩
      · rename_i resumed known
        cases ran
        refine ⟨number, job, _, found, claimable, rfl, .inr ⟨rfl, ?_, ?_⟩⟩
        · intro _
          simp [Job.row, known]
        · simp [Row.claimed, Row.phase, Job.row, waiting, known]
    · rename_i running
      cases ran
      refine ⟨number, job, _, found, claimable, rfl, .inr ⟨rfl, ?_, ?_⟩⟩
      · intro waiting
        exact absurd waiting running
      · simp [Row.claimed, Row.phase, Job.row, running]

/-- The conditions of the claim query on the table. -/
theorem Store.claimable_iff {job : Job} (claimable : store.claimable now job) :
    job.row.state.isTerminal = false ∧ job.row.idle now ∧
      ∀ other older, store.row? other = some older →
        older.olderThan job.row → older.recovering = false := by
  simp only [Store.claimable, Bool.and_eq_true, Bool.not_eq_true'] at claimable
  obtain ⟨⟨⟨⟨opened, free⟩, _⟩, _⟩, gated⟩ := claimable
  refine ⟨opened, ?_, ?_⟩
  · exact free
  · intro other older found before
    obtain ⟨original, known, rfl⟩ := Store.row?_eq_some.mp found
    by_contra recovering
    have recovers : original.row.recovering = true := by simpa using recovering
    have blocked :
        (store.jobs.any fun older =>
          older.sameChange job && older.patchsetNumber < job.patchsetNumber &&
            Sql.holds older.recoveryCondition) = true := by
      rw [List.any_eq_true]
      refine ⟨original, List.mem_of_getElem? known, ?_⟩
      simp only [Bool.and_eq_true, decide_eq_true_eq, Job.sameChange_iff,
        Job.holds_recoveryCondition]
      exact ⟨⟨before.1, before.2⟩, recovers⟩
    rw [gated] at blocked
    cases blocked

/-- What an operator requeue does to the store. -/
theorem Store.requeueFailed_eq_ok {record : JobRecord}
    (ran : store.requeueFailed now id = .ok (target, record)) :
    ∃ job written, store.jobs[id]? = some job ∧
      target = store.setJob id written ∧ job.state = .failedPermanent ∧
      (∀ other newer, store.row? other = some newer →
        ¬job.row.olderThan newer) ∧
      written.row = job.row.requeued := by
  obtain ⟨job, written, found, returned, rfl⟩ := Store.onJob_eq_ok.mp ran
  simp only [Except.bind_eq_ok, Except.require_eq_ok, decide_eq_true_eq,
    Bool.not_eq_true'] at returned
  obtain ⟨_, failed, _, latest, finished⟩ := returned
  cases finished
  refine ⟨job, _, found, rfl, failed, ?_, ?_⟩
  · intro other newer present
    exact Store.hasNewer_eq_false latest present
  · cases present : job.publication with
    | none =>
        simp [Row.requeued, Row.requeueState, Store.requeueState, Job.row,
          Row.release, present]
    | some publication =>
        cases status : publication.status <;>
          simp [Row.requeued, Row.requeueState, Store.requeueState, Job.row,
            Row.release, present, status, Store.requeuedPublication]

end Queue

section Admin

variable {store target : Store} {now : Time}

/-- An admin scope change skips queued rows and does nothing else to the table. -/
def Skipping (now : Time) (source target : JobId → Option Row) : Prop :=
  (∀ id row, source id = some row →
    ∃ changed, target id = some changed ∧ row.Skipped now changed) ∧
  ∀ id, source id = none → target id = none

theorem Skipping.keep (source : JobId → Option Row) : Skipping now source source :=
  ⟨fun _ row present => ⟨row, present, .keep⟩, fun _ absent => absent⟩

theorem Store.skippedJob_row {project : String} {cutoff : Time} {job : Job}
    (selected : Store.isPreCutoff now project cutoff job) :
    job.row.Skipped now (Store.skippedJob job).row := by
  simp only [Store.isPreCutoff, Bool.and_eq_true, Bool.not_eq_true',
    decide_eq_true_eq] at selected
  obtain ⟨⟨⟨_, opened⟩, free⟩, unpublished⟩ := selected
  refine .skip opened ?_ ?_
  · rw [Bool.or_eq_true] at free
    rcases free with unowned | idle
    · exact .inl (Option.isNone_iff_eq_none.mp unowned)
    · exact .inr idle
  · simpa [Job.row] using unpublished

theorem Store.skipPreCutoffJobs_skipping (project : String) (cutoff : Time) :
    Skipping now store.row?
      (store.skipPreCutoffJobs now project cutoff).row? := by
  constructor
  · intro id row present
    obtain ⟨job, found, rfl⟩ := Store.row?_eq_some.mp present
    have changed :
        (store.skipPreCutoffJobs now project cutoff).row? id =
          some
            (if Store.isPreCutoff now project cutoff job then
              Store.skippedJob job else job).row := by
      simp [Store.row?, Store.skipPreCutoffJobs, found]
    refine ⟨_, changed, ?_⟩
    split
    · rename_i selected
      exact Store.skippedJob_row selected
    · exact .keep
  · intro id absent
    simpa [Store.row?, Store.skipPreCutoffJobs] using absent

theorem Store.row?_congr (same : target.jobs = store.jobs) :
    target.row? = store.row? := by
  funext id
  simp [Store.row?, same]

theorem Store.skipBefore_skipping (project : String) (cutoff : Option Time)
    (same : target.jobs = store.jobs) :
    Skipping now store.row? (target.skipBefore now project cutoff).row? := by
  rw [← Store.row?_congr same]
  cases cutoff with
  | none => exact .keep target.row?
  | some cutoff => exact Store.skipPreCutoffJobs_skipping project cutoff

theorem Store.upsertProject_skipping {project : String} {enabled : Bool}
    {mode : ProjectReviewStartMode} {language : Option String}
    {vote : Option Bool} {row : ManagedProject}
    (ran : store.upsertProject now project enabled mode language vote =
      .ok (target, row)) :
    Skipping now store.row? target.row? := by
  simp only [Store.upsertProject, Except.bind_eq_ok] at ran
  obtain ⟨_, _, _, _, _, _, finished⟩ := ran
  cases finished
  refine Store.skipBefore_skipping _ _ ?_
  split <;> rfl

theorem Store.setProjectEnabled_skipping {project : String} {enabled : Bool}
    {row : ManagedProject}
    (ran : store.setProjectEnabled now project enabled = .ok (target, row)) :
    Skipping now store.row? target.row? := by
  unfold Store.setProjectEnabled at ran
  split at ran
  · cases ran
  · split at ran
    · cases ran
      exact Store.skipBefore_skipping _ (some now) rfl
    · cases ran
      exact .keep store.row?

theorem Store.setProjectReviewStartMode_skipping {project : String}
    {mode : ProjectReviewStartMode} {row : ManagedProject}
    (ran : store.setProjectReviewStartMode now project mode =
      .ok (target, row)) :
    Skipping now store.row? target.row? := by
  unfold Store.setProjectReviewStartMode at ran
  split at ran
  · cases ran
  · cases ran
    exact Store.skipBefore_skipping _ _ rfl

theorem Store.jobs_setProjectReviewPolicy {project language : String} {vote : Bool}
    {generation : Nat} {row : ManagedProject}
    (ran : store.setProjectReviewPolicy now project language vote generation =
      .ok (target, row)) :
    target.jobs = store.jobs := by
  unfold Store.setProjectReviewPolicy at ran
  obtain ⟨_, _, ran⟩ := Except.bind_eq_ok.mp ran
  split at ran
  · cases ran
  split at ran
  · cases ran
  split at ran
  · cases ran
    rfl
  · cases ran
    rfl

/-- The clean-up leaves the queue alone. -/
theorem Store.row?_pruneReviewRecoveryCache {retentionDays : Nat} :
    (store.pruneReviewRecoveryCache now retentionDays).1.row? = store.row? := by
  funext id
  unfold Store.pruneReviewRecoveryCache Store.row?
  rw [List.getElem?_map, Option.map_map]
  congr 1
  funext job
  dsimp only [Function.comp]
  unfold Job.pruned
  dsimp only
  split <;> rfl

end Admin

end PeReview
