import PeReview.Jobs.System

/-!
# Supersession and publication recovery

When the workers' steps come in the order `ReviewWorker` issues them, an older
patch set of a change is closed or in publication recovery as soon as a newer
one has been open, and a claim waits for that recovery to end.
-/

namespace PeReview

open PeReview.Process

namespace Row

/-- A closed row stays closed under the actions of workers. -/
theorem isTerminal_apply {row : Row} {worker : WorkerId} {now lease : Time}
    {action : RowAction} (valid : row.Valid)
    (guarded : action.guard worker now row) (closed : row.state.isTerminal) :
    (action.apply now lease row).state.isTerminal := by
  have notLive : ¬row.live worker now := by
    intro live
    rw [(not_isTerminal_of_live valid live).1] at closed
    cases closed
  cases action with
  | mark status => exact closed
  | post defer =>
      obtain ⟨_, ⟨publishing, _⟩ | ⟨_, rfl⟩⟩ := guarded
      · simp [publishing, JobState.isTerminal] at closed
      · rfl
  | extend => exact absurd guarded.1 notLive
  | move target release => exact absurd guarded.1 notLive
  | park resume => exact absurd guarded.1 notLive
  | close target => exact absurd guarded.1 notLive
  | save => exact absurd guarded.1 notLive
  | begin payload => exact absurd guarded.1 notLive
  | finish => exact absurd guarded.1 notLive

/-- A row a worker leaves open was open, and an orderly worker takes it out of
publication recovery only by closing it. -/
theorem recovering_apply {row : Row} {worker : WorkerId} {now lease : Time}
    {action : RowAction} (valid : row.Valid)
    (guarded : action.guard worker now row) (orderly : action.Orderly row)
    (opened : (action.apply now lease row).state.isTerminal = false) :
    row.state.isTerminal = false ∧
      (row.recovering → (action.apply now lease row).recovering) := by
  have openBefore : row.state.isTerminal = false := by
    by_contra closed
    have terminal : row.state.isTerminal := by simpa using closed
    rw [isTerminal_apply valid guarded terminal] at opened
    cases opened
  refine ⟨openBefore, ?_⟩
  cases action with
  | extend => exact id
  | mark status => exact id
  | begin payload => exact id
  | move target release =>
      intro recovers
      obtain ⟨live, _⟩ := guarded
      obtain ⟨_, moved⟩ := orderly
      have running := (not_isTerminal_of_live valid live).2
      rw [recovering_iff] at recovers
      rcases recovers with publishing | ⟨waiting, _⟩
      · simp [publishing] at moved
      · exact absurd waiting running
  | park resume =>
      intro recovers
      obtain ⟨live, _⟩ := guarded
      obtain rfl : resume = row.state := orderly
      have running := (not_isTerminal_of_live valid live).2
      rw [recovering_iff] at recovers
      rcases recovers with publishing | ⟨waiting, _⟩
      · simp [RowAction.apply, recovering, publishing]
      · exact absurd waiting running
  | close target =>
      have terminal := guarded.2.2.1
      rw [show (RowAction.apply now lease (.close target) row).state = target
        from rfl, terminal] at opened
      cases opened
  | save =>
      intro recovers
      have validating : row.state = .validating := orderly
      simp [recovering, validating] at recovers
  | post defer =>
      cases defer with
      | false => cases opened
      | true =>
          intro _
          simp [RowAction.apply, recovering]
  | finish => cases opened

/-- A failed row was failed or open before an action. -/
theorem open_or_failed_of_apply {row : Row} {worker : WorkerId}
    {now lease : Time} {action : RowAction} (valid : row.Valid)
    (guarded : action.guard worker now row)
    (after : (action.apply now lease row).state.isTerminal = false ∨
      (action.apply now lease row).state = .failedPermanent) :
    row.state.isTerminal = false ∨ row.state = .failedPermanent := by
  by_cases live : row.live worker now
  · exact .inl (not_isTerminal_of_live valid live).1
  · cases action with
    | mark status => exact after
    | post defer =>
        obtain ⟨_, ⟨publishing, _⟩ | ⟨_, rfl⟩⟩ := guarded
        · simp [publishing, JobState.isTerminal]
        · simp [RowAction.apply, JobState.isTerminal] at after
    | extend => exact absurd guarded.1 live
    | move target release => exact absurd guarded.1 live
    | park resume => exact absurd guarded.1 live
    | close target => exact absurd guarded.1 live
    | save => exact absurd guarded.1 live
    | begin payload => exact absurd guarded.1 live
    | finish => exact absurd guarded.1 live

end Row

namespace System

/-- The steps of workers come in the order `ReviewWorker` issues them. -/
def Orderly (system : System) : SystemLabel → Prop
  | .work worker call =>
      ∀ action ∈ call.action, ∀ row ∈ system.store.row? call.job,
        row.live worker system.now → action.Orderly row
  | _ => True

instance (system : System) (label : SystemLabel) :
    Decidable (system.Orderly label) := by
  cases label <;> unfold Orderly <;> infer_instance

def orderlyStep (hashes : Hashes) (lease : Time) (label : SystemLabel)
    (system : System) : Option System :=
  if system.Orderly label then some (system.next hashes lease label) else none

structure Consistent (system : System) : Prop where
  valid : ∀ id row, system.store.row? id = some row → row.Valid
  /-- A skipped job has never published. -/
  skipped : ∀ id row, system.store.row? id = some row →
    row.state = .skippedScope → row.publication = none
  /-- Every job that is open, or can be requeued, was open after an enqueue. -/
  seen : ∀ id row, system.store.row? id = some row →
    row.state.isTerminal = false ∨ row.state = .failedPermanent →
      id ∈ system.opened
  present : ∀ id ∈ system.opened, ∃ row, system.store.row? id = some row
  /-- Behind a job that has been open, older ones are closed or in recovery. -/
  ordered : ∀ old new older newer, system.store.row? old = some older →
    system.store.row? new = some newer → older.olderThan newer →
      new ∈ system.opened → older.state.isTerminal = false →
        older.recovering

variable {hashes : Hashes} {lease : Time}

/-- A change of one row keeps the system consistent. -/
theorem Consistent.update {source target : System} {id : JobId}
    {row written : Row} (before : source.Consistent)
    (opened : target.opened = source.opened)
    (found : source.store.row? id = some row)
    (wrote : target.store.row? id = some written)
    (others : ∀ other, other ≠ id →
      target.store.row? other = source.store.row? other)
    (identity : written.identity = row.identity)
    (valid : written.Valid)
    (skipped : written.state = .skippedScope → written.publication = none)
    (seen : written.state.isTerminal = false ∨
      written.state = .failedPermanent →
        row.state.isTerminal = false ∨ row.state = .failedPermanent)
    (settled : written.state.isTerminal = false →
      (row.state.isTerminal = false ∧ (row.recovering → written.recovering)) ∨
        ∀ other newer, source.store.row? other = some newer →
          ¬row.olderThan newer) :
    target.Consistent := by
  have original : ∀ other changed, target.store.row? other = some changed →
      ∃ earlier, source.store.row? other = some earlier ∧
        changed.identity = earlier.identity := by
    intro other changed reached
    by_cases same : other = id
    · subst same
      rw [wrote] at reached
      cases reached
      exact ⟨row, found, identity⟩
    · rw [others other same] at reached
      exact ⟨changed, reached, rfl⟩
  constructor
  · intro other changed reached
    by_cases same : other = id
    · subst same
      rw [wrote] at reached
      cases reached
      exact valid
    · rw [others other same] at reached
      exact before.valid other changed reached
  · intro other changed reached
    by_cases same : other = id
    · subst same
      rw [wrote] at reached
      cases reached
      exact skipped
    · rw [others other same] at reached
      exact before.skipped other changed reached
  · intro other changed reached running
    rw [opened]
    by_cases same : other = id
    · subst same
      rw [wrote] at reached
      cases reached
      exact before.seen other row found (seen running)
    · rw [others other same] at reached
      exact before.seen other changed reached running
  · intro other member
    rw [opened] at member
    obtain ⟨earlier, known⟩ := before.present other member
    by_cases same : other = id
    · subst same
      exact ⟨written, wrote⟩
    · exact ⟨earlier, by rw [others other same, known]⟩
  · intro old new older newer reachedOld reachedNew precedes member openOld
    rw [opened] at member
    obtain ⟨earlier, known, sameNew⟩ := original new newer reachedNew
    by_cases same : old = id
    · subst same
      rw [wrote] at reachedOld
      cases reachedOld
      rw [Row.olderThan_congr identity sameNew] at precedes
      rcases settled openOld with ⟨openBefore, keeps⟩ | latest
      · exact keeps
          (before.ordered old new row earlier found known precedes member
            openBefore)
      · exact absurd precedes (latest new earlier known)
    · rw [others old same] at reachedOld
      rw [Row.olderThan_congr rfl sameNew] at precedes
      exact before.ordered old new older earlier reachedOld known precedes member
        openOld

/-- A change that only closes rows keeps the system consistent. -/
theorem Consistent.skip {source target : System} (before : source.Consistent)
    (opened : target.opened = source.opened)
    (skipping : Skipping source.now source.store.row? target.store.row?) :
    target.Consistent := by
  have original : ∀ other changed, target.store.row? other = some changed →
      ∃ earlier, source.store.row? other = some earlier ∧
        earlier.Skipped source.now changed := by
    intro other changed reached
    cases known : source.store.row? other with
    | none =>
        rw [skipping.2 other known] at reached
        cases reached
    | some earlier =>
        obtain ⟨after, found, step⟩ := skipping.1 other earlier known
        rw [found] at reached
        cases reached
        exact ⟨earlier, rfl, step⟩
  constructor
  · intro other changed reached
    obtain ⟨earlier, known, step⟩ := original other changed reached
    exact (before.valid other earlier known).skipped step
  · intro other changed reached closed
    obtain ⟨earlier, known, step⟩ := original other changed reached
    cases step with
    | keep => exact before.skipped other changed known closed
    | skip _ _ unpublished => exact unpublished
  · intro other changed reached running
    rw [opened]
    obtain ⟨earlier, known, step⟩ := original other changed reached
    cases step with
    | keep => exact before.seen other changed known running
    | skip _ _ _ => simp [JobState.isTerminal] at running
  · intro other member
    rw [opened] at member
    obtain ⟨earlier, known⟩ := before.present other member
    obtain ⟨after, found, _⟩ := skipping.1 other earlier known
    exact ⟨after, found⟩
  · intro old new older newer reachedOld reachedNew precedes member openOld
    rw [opened] at member
    obtain ⟨earlierOld, knownOld, stepOld⟩ := original old older reachedOld
    obtain ⟨earlierNew, knownNew, stepNew⟩ := original new newer reachedNew
    rw [Row.olderThan_congr stepOld.identity stepNew.identity] at precedes
    cases stepOld with
    | keep =>
        exact before.ordered old new older earlierNew knownOld knownNew
          precedes member openOld
    | skip _ _ _ => simp [JobState.isTerminal] at openOld

/-- An enqueue keeps the system consistent. -/
theorem Consistent.enqueue {source target : System}
    (before : source.Consistent) (id : JobId)
    (opened : target.opened = openJobs target.store ++ source.opened)
    (ordered : Enqueueing source.store.row? target.store.row? id) :
    target.Consistent := by
  have resumable : ∀ other row, source.store.row? other = some row →
      row.Resumable :=
    fun other row known => (before.valid other row known).resumable
  -- A row is the change of an older row or freshly inserted.
  have original : ∀ other changed, target.store.row? other = some changed →
      (∃ earlier, source.store.row? other = some earlier ∧
        earlier.Enqueued changed) ∨
      (source.store.row? other = none ∧ other = id ∧ changed.Fresh) := by
    intro other changed reached
    cases known : source.store.row? other with
    | none =>
        exact .inr ⟨rfl, ordered.fresh other changed known reached⟩
    | some earlier =>
        obtain ⟨after, found, step⟩ := ordered.old other earlier known
        rw [found] at reached
        cases reached
        exact .inl ⟨earlier, rfl, step⟩
  have openElsewhere : ∀ other changed, other ≠ id →
      target.store.row? other = some changed →
        changed.state.isTerminal = false →
          source.store.row? other = some changed := by
    intro other changed different reached running
    rcases original other changed reached with
      ⟨earlier, known, _⟩ | ⟨_, same, _⟩
    · have kept :=
        ordered.kept other earlier changed different known reached running
      rw [kept]
      exact known
    · exact absurd same different
  constructor
  · intro other changed reached
    rcases original other changed reached with
      ⟨earlier, known, step⟩ | ⟨_, _, fresh⟩
    · exact (before.valid other earlier known).enqueued
        (before.skipped other earlier known) step
    · exact .fresh fresh
  · intro other changed reached closed
    rcases original other changed reached with
      ⟨earlier, known, step⟩ | ⟨_, _, fresh⟩
    · cases step with
      | keep => exact before.skipped other changed known closed
      | supersede _ _ _ _ => cases closed
      | revive _ => cases closed
      | reviveOlder _ => cases closed
    · exact fresh.publication
  · intro other changed reached running
    rw [opened, List.mem_append]
    rcases running with running | failed
    · exact .inl (mem_openJobs.mpr ⟨changed, reached, running⟩)
    · right
      rcases original other changed reached with
        ⟨earlier, known, step⟩ | ⟨_, _, fresh⟩
      · cases step with
        | keep => exact before.seen other changed known (.inr failed)
        | supersede _ _ _ _ => cases failed
        | revive _ => cases failed
        | reviveOlder _ => cases failed
      · rcases fresh.state with state | state | state <;>
          simp [state] at failed
  · intro other member
    rw [opened, List.mem_append] at member
    rcases member with isOpen | known
    · obtain ⟨row, found, _⟩ := mem_openJobs.mp isOpen
      exact ⟨row, found⟩
    · obtain ⟨earlier, found⟩ := before.present other known
      obtain ⟨after, reached, _⟩ := ordered.old other earlier found
      exact ⟨after, reached⟩
  · intro old new older newer reachedOld reachedNew precedes member openOld
    by_contra notRecovering
    have settled : older.recovering = false := by simpa using notRecovering
    -- The event's own row would have been superseded by the newer one.
    have different : old ≠ id := by
      rintro rfl
      exact ordered.older older reachedOld openOld settled new newer reachedNew
        precedes
    have knownOld := openElsewhere old older different reachedOld openOld
    have seenBefore : new ∈ source.opened → False := by
      intro known
      obtain ⟨earlier, found⟩ := before.present new known
      obtain ⟨after, reached, step⟩ := ordered.old new earlier found
      rw [reached] at reachedNew
      cases reachedNew
      rw [Row.olderThan_congr rfl step.identity] at precedes
      exact notRecovering
        (before.ordered old new older earlier knownOld found precedes known
          openOld)
    rw [opened, List.mem_append] at member
    rcases member with isOpen | known
    · obtain ⟨row, found, openNew⟩ := mem_openJobs.mp isOpen
      rw [reachedNew] at found
      cases found
      by_cases same : new = id
      · subst same
        rcases ordered.newer resumable newer reachedNew openNew with
          ⟨earlier, found, openBefore⟩ | closed
        · exact seenBefore (before.seen new earlier found (.inl openBefore))
        · rcases closed old older reachedOld precedes with terminal | recovers
          · rw [terminal] at openOld
            cases openOld
          · exact notRecovering recovers
      · have found := openElsewhere new newer same reachedNew openNew
        exact seenBefore (before.seen new newer found (.inl openNew))
    · exact seenBefore known

theorem Consistent.unchanged {source target : System}
    (before : source.Consistent) (opened : target.opened = source.opened)
    (same : target.store.row? = source.store.row?) :
    target.Consistent := by
  constructor
  · simpa only [same] using before.valid
  · simpa only [same] using before.skipped
  · simpa only [same, opened] using before.seen
  · simpa only [same, opened] using before.present
  · simpa only [same, opened] using before.ordered

theorem Consistent.next_enqueue {source : System} (before : source.Consistent)
    (event : GerritPatchsetEvent) (policyVersion : String) :
    (source.next hashes lease (.enqueue event policyVersion)).Consistent := by
  rcases commitEnqueue_store source
      (source.store.enqueue source.now event policyVersion)
    with ⟨store, opened⟩ | ⟨committed, value, ran, store, opened⟩
  · refine before.unchanged opened ?_
    rw [System.next, store]
  · refine before.enqueue value.1.id ?_ ?_
    · rw [System.next, opened, store]
    · rw [System.next, store]
      exact Store.enqueue_enqueueing ran

/-- An orderly action never skips a job. -/
theorem Consistent.skipped_apply {source : System} {id : JobId} {row : Row}
    {worker : WorkerId} {action : RowAction} (before : source.Consistent)
    (present : source.store.row? id = some row)
    (guarded : action.guard worker source.now row)
    (orderly : action.Orderly row)
    (skips : (action.apply source.now lease row).state = .skippedScope) :
    (action.apply source.now lease row).publication = none := by
  have valid := before.valid id row present
  cases action with
  | extend => exact before.skipped id row present skips
  | begin payload =>
      obtain ⟨_, publishing, _⟩ := guarded
      simp [RowAction.apply, publishing] at skips
  | mark status =>
      have absent := before.skipped id row present skips
      simp [RowAction.apply, RowAction.withStatus, absent]
  | move target release =>
      obtain ⟨_, moved⟩ := orderly
      simp only [RowAction.apply] at skips
      rcases moved with ⟨_, rfl⟩ | ⟨_, rfl⟩ | ⟨_, rfl⟩ | ⟨_, rfl⟩ <;>
        split at skips <;> cases skips
  | park resume => cases skips
  | close target =>
      obtain ⟨live, moves, _, _⟩ := guarded
      obtain rfl : target = .skippedScope := skips
      have running := (Row.not_isTerminal_of_live valid live).1
      cases known : row.state <;>
        simp [known, mayMove, allowedTransitions, JobState.isTerminal]
          at moves running
  | save => cases skips
  | post defer => cases defer <;> cases skips
  | finish => cases skips

/-- Every orderly step keeps the system consistent. -/
theorem Consistent.next {source target : System} {label : SystemLabel}
    (before : source.Consistent)
    (stepped : orderlyStep hashes lease label source = some target) :
    target.Consistent := by
  obtain ⟨orderly, rfl⟩ : source.Orderly label ∧
      source.next hashes lease label = target := by
    simpa [orderlyStep] using stepped
  by_cases enqueues : ∃ event policyVersion,
      label = .enqueue event policyVersion
  · obtain ⟨event, policyVersion, rfl⟩ := enqueues
    exact before.next_enqueue event policyVersion
  have opened : (source.next hashes lease label).opened = source.opened :=
    next_opened fun event policyVersion known =>
      enqueues ⟨event, policyVersion, known⟩
  cases next_change hashes lease source label with
  | none _ same => exact before.unchanged opened same
  | work worker call action row acts present guarded written others =>
      have valid := before.valid call.job row present
      have inOrder : row.live worker source.now → action.Orderly row :=
        orderly action acts row present
      have kept : action.Orderly row := by
        cases action with
        | extend | begin | close | mark | post | finish => trivial
        | move target release => exact inOrder guarded.1
        | park resume => exact inOrder guarded.1
        | save => exact inOrder guarded.1
      exact
        before.update opened present written others
          (Row.identity_apply source.now lease action row)
          (valid.apply guarded kept)
          (before.skipped_apply present guarded kept)
          (Row.open_or_failed_of_apply valid guarded)
          fun stillOpen =>
            .inl (Row.recovering_apply valid guarded kept stillOpen)
  | claim worker locked id row present running idle resumable gated written
      others =>
      have valid := before.valid id row present
      refine before.update opened present written others rfl
        (valid.claimed running) ?_ (fun _ => .inl running) ?_
      · intro skips
        have phaseOpen := (valid.phase_running running).1
        rw [show row.phase = .skippedScope from skips] at phaseOpen
        cases phaseOpen
      · intro _
        left
        refine ⟨running, ?_⟩
        intro recovers
        have publishing := valid.recovering_iff.mp recovers
        simp [Row.claimed, Row.recovering, publishing]
  | corrupt worker locked id row present waiting unknown idle written others =>
      exact absurd unknown ((before.valid id row present).resumable waiting)
  | enqueue event policyVersion id ordered =>
      exact absurd ⟨event, policyVersion, rfl⟩ enqueues
  | requeue id row present failed latest written others =>
      have valid := before.valid id row present
      refine before.update opened present written others rfl
        valid.requeued ?_ (fun _ => .inr failed) (fun _ => .inr latest)
      intro skips
      have resumed : row.requeueState = .skippedScope := skips
      unfold Row.requeueState at resumed
      split at resumed
      · cases resumed
      · cases resumed
      · split at resumed <;> cases resumed
  | skip _ skipping => exact before.skip opened skipping

theorem Consistent.initial {system : System} (initial : system.Initial) :
    system.Consistent := by
  obtain ⟨empty, unseen⟩ := initial
  have absent : ∀ id, system.store.row? id = none := by
    intro id
    simp [Store.row?, empty]
  constructor <;> simp [absent, unseen]

/-- The invariant of every run with orderly workers. -/
theorem Consistent.reachable {system : System}
    (reached : Reachable (orderlyStep hashes lease) Initial system) :
    system.Consistent :=
  reached.invariant (fun _ => .initial) fun _ _ _ before => before.next

/-- A closed row with a newer patch set behind it stays closed. -/
theorem Consistent.closed_next {source target : System} {label : SystemLabel}
    (before : source.Consistent)
    (stepped : orderlyStep hashes lease label source = some target)
    {old new : JobId} {older newer changed : Row}
    (found : source.store.row? old = some older)
    (newest : source.store.row? new = some newer)
    (precedes : older.olderThan newer)
    (closed : older.state.isTerminal)
    (reached : target.store.row? old = some changed) :
    changed.state.isTerminal := by
  obtain ⟨_, rfl⟩ : source.Orderly label ∧
      source.next hashes lease label = target := by
    simpa [orderlyStep] using stepped
  cases next_change hashes lease source label with
  | none _ same =>
      rw [same, found] at reached
      cases reached
      exact closed
  | work worker call action row acts present guarded written others =>
      by_cases same : old = call.job
      · subst same
        rw [found] at present
        cases present
        rw [written] at reached
        cases reached
        exact
          Row.isTerminal_apply (before.valid _ older found) guarded closed
      · rw [others old same, found] at reached
        cases reached
        exact closed
  | claim worker locked id row present running idle resumable gated written
      others =>
      by_cases same : old = id
      · subst same
        rw [found] at present
        cases present
        rw [running] at closed
        cases closed
      · rw [others old same, found] at reached
        cases reached
        exact closed
  | corrupt worker locked id row present waiting unknown idle written others =>
      exact absurd unknown ((before.valid id row present).resumable waiting)
  | enqueue event policyVersion id ordered =>
      by_contra stillOpen
      have opened : changed.state.isTerminal = false := by simpa using stillOpen
      obtain ⟨after, reachedOld, stepOld⟩ := ordered.old old older found
      rw [reached] at reachedOld
      cases reachedOld
      obtain ⟨newest', reachedNew, stepNew⟩ := ordered.old new newer newest
      have unchanged : changed = older := by
        by_cases same : old = id
        · subst same
          by_cases recovers : changed.recovering
          · have known := ordered.resumed changed reached recovers
            rw [found] at known
            exact (Option.some.inj known).symm
          · have settled : changed.recovering = false := by simpa using recovers
            have latest := ordered.older changed reached opened settled new
              newest' reachedNew
            rw [Row.olderThan_congr stepOld.identity stepNew.identity] at latest
            exact absurd precedes latest
        · exact ordered.kept old older changed same found reached opened
      rw [unchanged, closed] at opened
      cases opened
  | requeue id row present failed latest written others =>
      by_cases same : old = id
      · subst same
        rw [found] at present
        cases present
        exact absurd precedes (latest new newer newest)
      · rw [others old same, found] at reached
        cases reached
        exact closed
  | skip _ skipping =>
      obtain ⟨after, reachedOld, step⟩ := skipping.1 old older found
      rw [reached] at reachedOld
      cases reachedOld
      cases step with
      | keep => exact closed
      | skip _ _ _ => rfl

/-- Rows are never deleted and keep their identity. -/
theorem row_next (hashes : Hashes) (lease : Time) {source : System}
    (label : SystemLabel) {id : JobId} {row : Row}
    (found : source.store.row? id = some row) :
    ∃ changed, (source.next hashes lease label).store.row? id = some changed ∧
      changed.identity = row.identity := by
  cases next_change hashes lease source label with
  | none _ same => exact ⟨row, by rw [same, found], rfl⟩
  | work worker call action before acts present guarded written others =>
      by_cases same : id = call.job
      · subst same
        rw [found] at present
        cases present
        exact ⟨_, written, Row.identity_apply source.now lease action row⟩
      · exact ⟨row, by rw [others id same, found], rfl⟩
  | claim worker locked other before present running idle resumable gated written
      others =>
      by_cases same : id = other
      · subst same
        rw [found] at present
        cases present
        exact ⟨_, written, rfl⟩
      · exact ⟨row, by rw [others id same, found], rfl⟩
  | corrupt worker locked other before present waiting unknown idle written
      others =>
      by_cases same : id = other
      · subst same
        rw [found] at present
        cases present
        exact ⟨_, written, rfl⟩
      · exact ⟨row, by rw [others id same, found], rfl⟩
  | enqueue event policyVersion other ordered =>
      obtain ⟨changed, reached, step⟩ := ordered.old id row found
      exact ⟨changed, reached, step.identity⟩
  | requeue other before present failed latest written others =>
      by_cases same : id = other
      · subst same
        rw [found] at present
        cases present
        exact ⟨_, written, rfl⟩
      · exact ⟨row, by rw [others id same, found], rfl⟩
  | skip _ skipping =>
      obtain ⟨changed, reached, step⟩ := skipping.1 id row found
      exact ⟨changed, reached, step.identity⟩

def OlderClosed (id : JobId) (system : System) : Prop :=
  ∃ newer, system.store.row? id = some newer ∧
    ∀ other older, system.store.row? other = some older →
      older.olderThan newer → older.state.isTerminal

/-- Once every older patch set of a job is closed, it stays so, whatever is
enqueued, claimed, retried, skipped or requeued. -/
theorem OlderClosed.next {source target : System} {label : SystemLabel}
    {id : JobId} (before : source.Consistent) (closed : OlderClosed id source)
    (stepped : orderlyStep hashes lease label source = some target) :
    OlderClosed id target := by
  obtain ⟨newer, newest, older⟩ := closed
  obtain ⟨_, rfl⟩ : source.Orderly label ∧
      source.next hashes lease label = target := by
    simpa [orderlyStep] using stepped
  obtain ⟨changedNew, reachedNew, sameNew⟩ :=
    row_next hashes lease label newest
  refine ⟨changedNew, reachedNew, ?_⟩
  intro other changed reached precedes
  cases found : source.store.row? other with
  | some earlier =>
      obtain ⟨again, reachedAgain, sameOld⟩ :=
        row_next hashes lease label found
      rw [reached] at reachedAgain
      cases reachedAgain
      rw [Row.olderThan_congr sameOld sameNew] at precedes
      exact
        before.closed_next stepped found newest precedes
          (older other earlier found precedes) reached
  | none =>
      -- Only an enqueue inserts, and it orders the new row behind the newer one.
      cases next_change hashes lease source label with
      | none _ same =>
          rw [same, found] at reached
          cases reached
      | work worker call action row acts present guarded written others =>
          have different : other ≠ call.job := by
            rintro rfl
            rw [found] at present
            cases present
          rw [others other different, found] at reached
          cases reached
      | claim worker locked number row present running idle resumable gated
          written others =>
          have different : other ≠ number := by
            rintro rfl
            rw [found] at present
            cases present
          rw [others other different, found] at reached
          cases reached
      | corrupt worker locked number row present waiting unknown idle written
          others =>
          have different : other ≠ number := by
            rintro rfl
            rw [found] at present
            cases present
          rw [others other different, found] at reached
          cases reached
      | enqueue event policyVersion number ordered =>
          obtain ⟨rfl, fresh⟩ := ordered.fresh other changed found reached
          by_contra stillOpen
          have opened : changed.state.isTerminal = false := by
            simpa using stillOpen
          have settled : changed.recovering = false := by
            rcases fresh.state with state | state | state <;>
              simp [Row.recovering, state]
          exact ordered.older changed reached opened settled id changedNew
            reachedNew precedes
      | requeue number row present failed latest written others =>
          have different : other ≠ number := by
            rintro rfl
            rw [found] at present
            cases present
          rw [others other different, found] at reached
          cases reached
      | skip _ skipping =>
          rw [skipping.2 other found] at reached
          cases reached

/-- A claim answers only with a job whose older patch sets are closed. -/
theorem Claims.olderClosed {source : System} {worker : WorkerId}
    {locked : List JobId} {id : JobId} (before : source.Consistent)
    (claims : source.Claims lease worker locked id) :
    OlderClosed id (source.next hashes lease (.claim worker locked)) := by
  obtain ⟨record, answered, rfl⟩ := claims
  have ran : source.store.claimNext source.now lease worker locked =
      ((source.store.claimNext source.now lease worker locked).1, some record) :=
    Prod.ext rfl answered
  rcases Store.claimNext_cases ran with
    ⟨_, impossible⟩ | ⟨id, job, written, found, claimable, target, outcome⟩
  · cases impossible
  · rcases outcome with ⟨_, _, impossible, _⟩ | ⟨named, _, row⟩
    · cases impossible
    · obtain rfl : record = written.record id := Option.some.inj named
      obtain ⟨opened, _, gated⟩ := Store.claimable_iff claimable
      have known : source.store.row? id = some job.row :=
        Store.row?_of_getElem? found
      have store :
          (source.next hashes lease (.claim worker locked)).store =
            source.store.setJob id written := target
      have claimed : (source.store.setJob id written).row? id =
          some written.row :=
        Store.row?_setJob_self found
      refine ⟨written.row, ?_, ?_⟩
      · rw [store]
        exact claimed
      · intro other older reached precedes
        rw [store] at reached
        have identity : written.row.identity = job.row.identity := by
          rw [row]
          rfl
        rw [Row.olderThan_congr rfl identity] at precedes
        have different : other ≠ id := by
          rintro rfl
          have self : (source.store.setJob other written).row? other =
              some written.row := claimed
          rw [self] at reached
          cases reached
          rw [Row.olderThan_congr identity rfl] at precedes
          exact Row.not_olderThan_self job.row precedes
        rw [Store.row?_setJob_of_ne found different] at reached
        by_contra stillOpen
        have running : older.state.isTerminal = false := by simpa using stillOpen
        have seen := before.seen id job.row known (.inl opened)
        have recovers :=
          before.ordered other id older job.row reached known precedes seen running
        rw [gated other older reached precedes] at recovers
        cases recovers

/-- Supersession and recovery: behind a patch set that has been open after an
enqueue, every open older one is in publication recovery; and a job owns a
publication only in recovery or once it is closed. -/
theorem supersession_and_recovery {system : System}
    (reached : Reachable (orderlyStep hashes lease) Initial system) :
    (∀ (old new : JobId) (older newer : Job),
      system.store.jobs[old]? = some older →
      system.store.jobs[new]? = some newer → older.sameChange newer →
        older.patchsetNumber < newer.patchsetNumber → new ∈ system.opened →
          older.state.isTerminal = false →
            older.state = .publishing ∨
              older.state = .retryWait ∧ older.retryState = some .publishing) ∧
    ∀ (id : JobId) (job : Job), system.store.jobs[id]? = some job →
      job.publication.isSome →
      job.state = .publishing ∨
        (job.state = .retryWait ∧ job.retryState = some .publishing) ∨
          job.state.isTerminal := by
  have consistent := Consistent.reachable reached
  constructor
  · intro old new older newer foundOld foundNew same smaller seen opened
    have precedes : older.row.olderThan newer.row :=
      ⟨Job.sameChange_iff.mp same, smaller⟩
    have recovers :=
      consistent.ordered old new older.row newer.row
        (Store.row?_of_getElem? foundOld) (Store.row?_of_getElem? foundNew)
        precedes seen opened
    exact Row.recovering_iff.mp recovers
  · intro id job found present
    have valid := consistent.valid id job.row (Store.row?_of_getElem? found)
    have published : job.row.publication.isSome := by simpa [Job.row] using present
    rcases valid.published published with recovers | closed
    · rcases Row.recovering_iff.mp recovers with publishing | waiting
      · exact .inl publishing
      · exact .inr (.inl waiting)
    · exact .inr (.inr closed)

/-- An event of a change with two patch sets. -/
def patchsetEvent (number : Int) (revisionSha : String) : GerritPatchsetEvent :=
  { project := "p", changeNumber := 1, patchsetNumber := number, revisionSha }

/-- A run in which a newer patch set arrives while the older one publishes. -/
def publishingRun : List SystemLabel :=
  [.enqueue (patchsetEvent 1 "a") "v", .claim "w" [],
    .work "w" (.transition 0 .fetching false),
    .work "w" (.transition 0 .reviewing false),
    .work "w" (.transition 0 .validating false),
    .work "w" (.saveReviewResultAndMarkReady 0 { summary := "s" }),
    .claim "w" [], .work "w" (.transition 0 .publishing false),
    .work "w" (.beginPublication 0
      { message := "s", tag := "t", notify := "OWNER", comments := [] } []),
    .enqueue (patchsetEvent 2 "b") "v"]

def publishingSystem : System :=
  (run (orderlyStep Hashes.constant 10) publishingRun {}).getD {}

theorem publishingSystem_reached :
    Reachable (orderlyStep Hashes.constant 10) Initial publishingSystem := by
  refine ⟨{}, publishingRun, ⟨rfl, rfl⟩, ?_⟩
  have runs : (run (orderlyStep Hashes.constant 10) publishingRun {}).isSome := by
    decide
  obtain ⟨final, known⟩ := Option.isSome_iff_exists.mp runs
  simp [publishingSystem, known]

theorem supersession_and_recovery_publishing :
    ∃ older newer, publishingSystem.store.jobs[0]? = some older ∧
      publishingSystem.store.jobs[1]? = some newer ∧
      (older.state = .publishing ∨
        older.state = .retryWait ∧ older.retryState = some .publishing) := by
  have facts := supersession_and_recovery publishingSystem_reached
  have foundOlder : publishingSystem.store.jobs[0]? =
      some (publishingSystem.store.jobs[0]?.get (by decide)) :=
    (Option.some_get _).symm
  have foundNewer : publishingSystem.store.jobs[1]? =
      some (publishingSystem.store.jobs[1]?.get (by decide)) :=
    (Option.some_get _).symm
  exact
    ⟨_, _, foundOlder, foundNewer,
      facts.1 0 1 _ _ foundOlder foundNewer (by decide) (by decide) (by decide)
        (by decide)⟩

/-- An older publication gates newer work: when a claim returns a job, every
older patch set of its change is closed, now and in every later state. -/
theorem claim_closes_older {source final : System} {worker : WorkerId}
    {locked : List JobId} {id : JobId} {labels : List SystemLabel}
    (reached : Reachable (orderlyStep hashes lease) Initial source)
    (claims : source.Claims lease worker locked id)
    (ran : run (orderlyStep hashes lease) (.claim worker locked :: labels)
      source = some final) :
    ∃ newer, final.store.jobs[id]? = some newer ∧
      ∀ (old : JobId) (older : Job), final.store.jobs[old]? = some older →
        older.sameChange newer → older.patchsetNumber < newer.patchsetNumber →
          older.state.isTerminal ∧ older.needsPublishRecovery = false := by
  have consistent := Consistent.reachable reached
  obtain ⟨target, stepped, ran⟩ := run_cons_eq_some.mp ran
  have claimed : source.next hashes lease (.claim worker locked) = target := by
    simpa [orderlyStep, Orderly] using stepped
  have closedNow : OlderClosed id target := by
    rw [← claimed]
    exact claims.olderClosed consistent
  have preserved : ∀ label ∈ labels, ∀ before after : System,
      before.Consistent ∧ OlderClosed id before →
        orderlyStep hashes lease label before = some after →
          after.Consistent ∧ OlderClosed id after :=
    fun _ _ _ _ both step => ⟨both.1.next step, both.2.next both.1 step⟩
  have kept : final.Consistent ∧ OlderClosed id final :=
    run_preserves preserved ⟨consistent.next stepped, closedNow⟩ ran
  obtain ⟨consistentFinal, newer, newest, closed⟩ := kept
  obtain ⟨job, found, rfl⟩ := Store.row?_eq_some.mp newest
  refine ⟨job, found, ?_⟩
  intro old older foundOld same smaller
  have terminal : older.row.state.isTerminal :=
    closed old older.row (Store.row?_of_getElem? foundOld)
      ⟨Job.sameChange_iff.mp same, smaller⟩
  refine ⟨terminal, ?_⟩
  rw [Job.row_state] at terminal
  cases state : older.state <;>
    simp [state, JobState.isTerminal, Job.needsPublishRecovery] at terminal ⊢

/-- A run that ends with a claim of the newer of two patch sets. -/
def supersedingRun : List SystemLabel :=
  [.enqueue (patchsetEvent 1 "a") "v", .enqueue (patchsetEvent 2 "b") "v"]

def supersededSystem : System :=
  (run (orderlyStep Hashes.constant 10) supersedingRun {}).getD {}

theorem supersededSystem_reached :
    Reachable (orderlyStep Hashes.constant 10) Initial supersededSystem := by
  refine ⟨{}, supersedingRun, ⟨rfl, rfl⟩, ?_⟩
  have runs : (run (orderlyStep Hashes.constant 10) supersedingRun {}).isSome := by
    decide
  obtain ⟨final, known⟩ := Option.isSome_iff_exists.mp runs
  simp [supersededSystem, known]

theorem claim_closes_older_superseded :
    ∃ final newer, run (orderlyStep Hashes.constant 10)
        [.claim "w" [], .enqueue (patchsetEvent 1 "c") "v"] supersededSystem =
          some final ∧
      final.store.jobs[1]? = some newer ∧
      ∀ (old : JobId) (older : Job), final.store.jobs[old]? = some older →
        older.sameChange newer → older.patchsetNumber < newer.patchsetNumber →
          older.state.isTerminal ∧ older.needsPublishRecovery = false := by
  have runs : (run (orderlyStep Hashes.constant 10)
      [.claim "w" [], .enqueue (patchsetEvent 1 "c") "v"]
      supersededSystem).isSome := by
    decide
  obtain ⟨final, ran⟩ := Option.isSome_iff_exists.mp runs
  have claims : supersededSystem.Claims 10 "w" [] 1 := by
    have answers :
        (supersededSystem.store.claimNext supersededSystem.now 10 "w" []).2.map
          JobRecord.id = some 1 := by
      decide
    exact Option.map_eq_some_iff.mp answers
  obtain ⟨newer, found, closed⟩ :=
    claim_closes_older supersededSystem_reached claims ran
  exact ⟨final, newer, ran, found, closed⟩

end System

end PeReview
