import PeReview.Jobs.System

/-!
# Lease fencing

Whatever the workers call, in any order: a granted lease keeps every other
worker from claiming the job until it ends, is given back or the job is closed,
and without a live lease the guarded columns of a job cannot be written.
-/

namespace PeReview

open PeReview.Process

/-- The check constraint on `retry_state`. -/
def Row.Constrained (row : Row) : Prop :=
  ∀ state, row.retryState = some state → validRetryTarget state

namespace Row

theorem Constrained.of_none {row : Row} (absent : row.retryState = none) :
    row.Constrained := by
  intro state known
  rw [absent] at known
  cases known

theorem Constrained.apply {row : Row} {worker : WorkerId} {now lease : Time}
    {action : RowAction} (constrained : row.Constrained)
    (guarded : action.guard worker now row) :
    (action.apply now lease row).Constrained := by
  cases action with
  | extend => exact constrained
  | move target release =>
      apply Constrained.of_none
      simp only [RowAction.apply]
      split <;> rfl
  | park resume =>
      intro state known
      obtain rfl : resume = state := Option.some.inj known
      exact guarded.2.1
  | close target => exact .of_none rfl
  | save => exact .of_none rfl
  | begin payload => exact constrained
  | mark status => exact constrained
  | post defer => cases defer <;> exact .of_none rfl
  | finish => exact .of_none rfl

theorem Constrained.enqueued {row changed : Row} (constrained : row.Constrained)
    (step : row.Enqueued changed) :
    changed.Constrained := by
  cases step with
  | keep => exact constrained
  | supersede retryState cleared opened settled =>
      rcases cleared with rfl | rfl
      · exact constrained
      · exact .of_none rfl
  | revive skipped => exact .of_none rfl
  | reviveOlder skipped => exact .of_none rfl

theorem Constrained.claimed {row : Row} {worker : WorkerId} {now lease : Time}
    (constrained : row.Constrained) :
    (row.claimed worker now lease).Constrained := by
  intro state known
  simp only [Row.claimed] at known
  split at known
  · cases known
  · exact constrained state known

/-- A constrained row that is open and resumable continues open. -/
theorem Constrained.phase_open {row : Row} (constrained : row.Constrained)
    (resumable : row.Resumable) (opened : row.state.isTerminal = false) :
    row.phase.isTerminal = false := by
  by_cases waiting : row.state = .retryWait
  · obtain ⟨resumed, known⟩ := Option.ne_none_iff_exists'.mp (resumable waiting)
    have phaseKnown : row.phase = resumed := by simp [phase, waiting, known]
    rw [phaseKnown]
    exact not_isTerminal_of_validRetryTarget (constrained resumed known)
  · have phaseKnown : row.phase = row.state := by simp [phase, waiting]
    rw [phaseKnown]
    exact opened

end Row

namespace System

variable {hashes : Hashes} {lease : Time}

def Constrained (system : System) : Prop :=
  ∀ id row, system.store.row? id = some row → row.Constrained

/-- A change of one row keeps the constraint. -/
theorem Constrained.update {source : System} {target : JobId → Option Row}
    {id : JobId} {written : Row} (before : source.Constrained)
    (wrote : target id = some written) (kept : written.Constrained)
    (others : ∀ other, other ≠ id → target other = source.store.row? other)
    {other : JobId} {row : Row} (found : target other = some row) :
    row.Constrained := by
  by_cases same : other = id
  · subst same
    rw [wrote] at found
    cases found
    exact kept
  · rw [others other same] at found
    exact before other row found

theorem Constrained.next {source : System} {label : SystemLabel}
    (before : source.Constrained) :
    (source.next hashes lease label).Constrained := by
  intro id row found
  cases next_change hashes lease source label with
  | none _ same =>
      rw [same] at found
      exact before id row found
  | work worker call action earlier acts present guarded written others =>
      exact
        before.update written ((before call.job earlier present).apply guarded)
          others found
  | claim worker locked other earlier present opened idle resumable gated
      written others =>
      exact
        before.update written (before other earlier present).claimed others found
  | corrupt worker locked other earlier present waiting unknown idle written
      others =>
      exact before.update written (.of_none unknown) others found
  | enqueue event policyVersion other ordered =>
      cases known : source.store.row? id with
      | none =>
          exact .of_none (ordered.fresh id row known found).2.retryState
      | some earlier =>
          obtain ⟨changed, reached, step⟩ := ordered.old id earlier known
          rw [found] at reached
          cases reached
          exact (before id earlier known).enqueued step
  | requeue other earlier present failed latest written others =>
      exact before.update written (.of_none rfl) others found
  | skip _ skipping =>
      cases known : source.store.row? id with
      | none =>
          rw [skipping.2 id known] at found
          cases found
      | some earlier =>
          obtain ⟨changed, reached, step⟩ := skipping.1 id earlier known
          rw [found] at reached
          cases reached
          cases step with
          | keep => exact before id row known
          | skip _ _ _ => exact .of_none rfl

theorem Constrained.reachable {system : System}
    (reached : Reachable (step hashes lease) Initial system) :
    system.Constrained := by
  refine reached.invariant ?_ ?_
  · intro system initial id row found
    simp [Store.row?, initial.1] at found
  · intro label source target before stepped
    cases stepped
    exact before.next

/-- A worker holds the lease of an open job at least until some time. -/
def Held (worker : WorkerId) (deadline : Time) (id : JobId) (system : System) :
    Prop :=
  ∃ row, system.store.row? id = some row ∧ row.leaseOwner = some worker ∧
    (∃ expires, row.leaseExpiresAt = some expires ∧ deadline ≤ expires) ∧
    row.state.isTerminal = false

/-- A step in which a worker gives its own lease back. -/
def Releases (worker : WorkerId) (id : JobId) (source : System)
    (label : SystemLabel) (target : System) : Prop :=
  (∃ call, label = .work worker call) ∧
    (∃ job, source.store.jobs[id]? = some job ∧ job.leaseOwner = some worker) ∧
    ∃ job, target.store.jobs[id]? = some job ∧ job.leaseOwner = none

def Closes (id : JobId) (source target : System) : Prop :=
  (∃ job, source.store.jobs[id]? = some job ∧ job.state.isTerminal = false) ∧
    ∃ job, target.store.jobs[id]? = some job ∧ job.state.isTerminal

theorem Closes.of_rows {id : JobId} {source target : System} {row changed : Row}
    (found : source.store.row? id = some row)
    (opened : row.state.isTerminal = false)
    (reached : target.store.row? id = some changed)
    (closed : changed.state.isTerminal) :
    Closes id source target := by
  obtain ⟨job, known, rfl⟩ := Store.row?_eq_some.mp found
  obtain ⟨after, knownAfter, rfl⟩ := Store.row?_eq_some.mp reached
  exact ⟨⟨job, known, opened⟩, after, knownAfter, closed⟩

theorem Releases.of_rows {worker : WorkerId} {call : StoreCall} {id : JobId}
    {source target : System} {row changed : Row}
    (found : source.store.row? id = some row)
    (owned : row.leaseOwner = some worker)
    (reached : target.store.row? id = some changed)
    (free : changed.leaseOwner = none) :
    Releases worker id source (.work worker call) target := by
  obtain ⟨job, known, rfl⟩ := Store.row?_eq_some.mp found
  obtain ⟨after, knownAfter, rfl⟩ := Store.row?_eq_some.mp reached
  exact ⟨⟨call, rfl⟩, ⟨job, known, owned⟩, after, knownAfter, free⟩

/-- Until its deadline a held lease ends only when its worker gives it back or
the job is closed. -/
theorem Held.next (hashes : Hashes) {source : System} (label : SystemLabel)
    {worker : WorkerId} {deadline : Time} {id : JobId} (held : Held worker deadline id source)
    (unexpired : source.now < deadline)
    (renewable : deadline ≤ source.now + lease) :
    Held worker deadline id (source.next hashes lease label) ∨
      Releases worker id source label (source.next hashes lease label) ∨
      Closes id source (source.next hashes lease label) := by
  obtain ⟨row, found, owned, ⟨expires, expiry, late⟩, opened⟩ := held
  have busy : row.idle source.now = false := by
    simp [Row.idle, expiry, Nat.lt_of_lt_of_le unexpired late]
  have unchanged :
      (source.next hashes lease label).store.row? id = some row →
        Held worker deadline id (source.next hashes lease label) :=
    fun reached => ⟨row, reached, owned, ⟨expires, expiry, late⟩, opened⟩
  cases next_change hashes lease source label with
  | none _ same => exact .inl (unchanged (by rw [same, found]))
  | work other call action earlier acts present guarded written others =>
      by_cases same : id = call.job
      · subst same
        rw [found] at present
        cases present
        have holder : row.live other source.now → other = worker := by
          intro live
          have alsoOwned := (Row.live_iff.mp live).1
          rw [owned] at alsoOwned
          exact (Option.some.inj alsoOwned).symm
        cases action with
        | extend =>
            exact .inl
              ⟨_, written, owned, ⟨source.now + lease, rfl, renewable⟩, opened⟩
        | begin payload =>
            exact .inl ⟨_, written, owned, ⟨expires, expiry, late⟩, opened⟩
        | mark status =>
            exact .inl ⟨_, written, owned, ⟨expires, expiry, late⟩, opened⟩
        | move target release =>
            obtain rfl := holder guarded.1
            by_cases terminal : target.isTerminal
            · right; right
              refine Closes.of_rows found opened written ?_
              simp only [RowAction.apply]
              split <;> exact terminal
            · cases release with
              | true =>
                  right; left
                  exact Releases.of_rows found owned written rfl
              | false =>
                  left
                  refine ⟨_, written, ?_, ⟨expires, ?_, late⟩, ?_⟩ <;>
                    simp [RowAction.apply, terminal, owned, expiry]
        | park resume =>
            obtain rfl := holder guarded.1
            exact .inr (.inl (Releases.of_rows found owned written rfl))
        | close target =>
            exact
              .inr (.inr (Closes.of_rows found opened written guarded.2.2.1))
        | save =>
            obtain rfl := holder guarded.1
            exact .inr (.inl (Releases.of_rows found owned written rfl))
        | post defer =>
            obtain ⟨_, ⟨publishing, _, _⟩ | ⟨superseded, _⟩⟩ := guarded
            · cases defer with
              | true =>
                  exact .inl
                    ⟨_, written, owned, ⟨expires, expiry, late⟩, rfl⟩
              | false =>
                  exact .inr (.inr (Closes.of_rows found opened written rfl))
            · simp [superseded, JobState.isTerminal] at opened
        | finish =>
            exact .inr (.inr (Closes.of_rows found opened written rfl))
      · exact .inl (unchanged (by rw [others id same, found]))
  | claim other locked number earlier present running idle resumable gated
      written others =>
      have different : id ≠ number := by
        rintro rfl
        rw [found] at present
        cases present
        rw [busy] at idle
        cases idle
      exact .inl (unchanged (by rw [others id different, found]))
  | corrupt other locked number earlier present waiting unknown idle written
      others =>
      have different : id ≠ number := by
        rintro rfl
        rw [found] at present
        cases present
        rw [busy] at idle
        cases idle
      exact .inl (unchanged (by rw [others id different, found]))
  | enqueue event policyVersion number ordered =>
      obtain ⟨changed, reached, step⟩ := ordered.old id row found
      cases step with
      | keep => exact .inl (unchanged reached)
      | supersede _ _ _ _ =>
          exact .inr (.inr (Closes.of_rows found opened reached rfl))
      | revive skipped => simp [skipped, JobState.isTerminal] at opened
      | reviveOlder skipped => simp [skipped, JobState.isTerminal] at opened
  | requeue number earlier present failed latest written others =>
      have different : id ≠ number := by
        rintro rfl
        rw [found] at present
        cases present
        simp [failed, JobState.isTerminal] at opened
      exact .inl (unchanged (by rw [others id different, found]))
  | skip _ skipping =>
      obtain ⟨changed, reached, step⟩ := skipping.1 id row found
      cases step with
      | keep => exact .inl (unchanged reached)
      | skip _ _ _ =>
          exact .inr (.inr (Closes.of_rows found opened reached rfl))

/-- The steps that grant a worker a lease: a claim that returns the job, or a
publish guard that answers `OK`. -/
inductive Grants (lease : Time) (system : System) (worker : WorkerId)
    (id : JobId) : SystemLabel → Prop
  | claim (locked : List JobId)
      (claims : system.Claims lease worker locked id) :
      Grants lease system worker id (.claim worker locked)
  | guard
      (answered : (system.store.refreshPublishGuard system.now lease id
        worker).2 = .ok) :
      Grants lease system worker id (.work worker (.refreshPublishGuard id))

/-- A job that a claim returns was leased by nobody and is leased now. -/
theorem Claims.claimed (hashes : Hashes) {system : System}
    {worker : WorkerId} {locked : List JobId} {id : JobId}
    (claims : system.Claims lease worker locked id) :
    ∃ row, system.store.row? id = some row ∧ row.state.isTerminal = false ∧
      row.idle system.now ∧ row.Resumable ∧
      (system.next hashes lease (.claim worker locked)).store.row? id =
        some (row.claimed worker system.now lease) := by
  obtain ⟨record, answered, rfl⟩ := claims
  have ran : system.store.claimNext system.now lease worker locked =
      ((system.store.claimNext system.now lease worker locked).1, some record) :=
    Prod.ext rfl answered
  rcases Store.claimNext_cases ran with
    ⟨_, impossible⟩ | ⟨id, job, written, found, claimable, target, outcome⟩
  · cases impossible
  · rcases outcome with ⟨_, _, impossible, _⟩ | ⟨named, resumable, row⟩
    · cases impossible
    · obtain rfl : record = written.record id := Option.some.inj named
      obtain ⟨opened, idle, _⟩ := Store.claimable_iff claimable
      refine ⟨job.row, Store.row?_of_getElem? found, opened, idle, resumable, ?_⟩
      have store :
          (system.next hashes lease (.claim worker locked)).store =
            system.store.setJob id written := target
      rw [store, ← row]
      exact Store.row?_setJob_self found

theorem Grants.held (hashes : Hashes) {system : System} {worker : WorkerId} {id : JobId}
    {label : SystemLabel} (constrained : system.Constrained)
    (grants : Grants lease system worker id label) :
    Held worker (system.now + lease) id (system.next hashes lease label) := by
  cases grants with
  | claim locked claims =>
      obtain ⟨row, found, opened, _, resumable, reached⟩ :=
        claims.claimed hashes
      refine ⟨_, reached, rfl, ⟨system.now + lease, rfl, Nat.le_refl _⟩, ?_⟩
      exact (constrained id row found).phase_open resumable opened
  | guard answered =>
      unfold Store.refreshPublishGuard at answered
      cases found : system.store.jobs[id]? with
      | none => simp [found] at answered
      | some job =>
          simp only [found] at answered
          split at answered
          · cases answered
          · rename_i allowed
            simp only [ne_eq, Bool.or_eq_true, decide_eq_true_eq,
              Bool.not_eq_true', not_or, Decidable.not_not,
              Bool.not_eq_false] at allowed
            obtain ⟨publishing, live⟩ := allowed
            split at answered
            · cases answered
            · rename_i latest
              have rowLive : job.row.live worker system.now := live
              have owned := (Row.live_iff.mp rowLive).1
              have extended :
                  (system.next hashes lease
                    (.work worker (.refreshPublishGuard id))).store =
                    system.store.setJob id
                      { job with
                        leaseExpiresAt := some (system.now + lease) } := by
                simp [System.next, commit, StoreCall.run,
                  Store.refreshPublishGuard, found, publishing, live, latest]
              have reached :
                  (system.store.setJob id
                    { job with
                      leaseExpiresAt := some (system.now + lease) }).row? id =
                    some
                      ({ job with
                        leaseExpiresAt := some (system.now + lease) } : Job).row :=
                Store.row?_setJob_self found
              rw [← extended] at reached
              refine ⟨_, reached, owned,
                ⟨system.now + lease, rfl, Nat.le_refl _⟩, ?_⟩
              simp [Job.row, publishing, JobState.isTerminal]

/-- Somewhere in a run the worker gives the lease of a job back, or the job is
closed. -/
def Interrupted (hashes : Hashes) (lease : Time) (worker : WorkerId) (id : JobId)
    (labels : List SystemLabel) (source : System) : Prop :=
  ∃ first label rest before after, labels = first ++ label :: rest ∧
    run (step hashes lease) first source = some before ∧
    step hashes lease label before = some after ∧
    (Releases worker id before label after ∨ Closes id before after)

theorem Interrupted.cons {worker : WorkerId} {id : JobId} {label : SystemLabel}
    {labels : List SystemLabel} {source target : System}
    (stepped : step hashes lease label source = some target)
    (later : Interrupted hashes lease worker id labels target) :
    Interrupted hashes lease worker id (label :: labels) source := by
  obtain ⟨first, broken, rest, before, after, rfl, ran, broke, how⟩ := later
  exact ⟨label :: first, broken, rest, before, after, rfl,
    run_cons_eq_some.mpr ⟨target, stepped, ran⟩, broke, how⟩

/-- A held lease outlasts a run up to its deadline, unless it is interrupted. -/
theorem Held.run {worker : WorkerId} {start : Time} {id : JobId}
    {labels : List SystemLabel} {source target : System}
    (held : Held worker (start + lease) id source) (begun : start ≤ source.now)
    (ran : Process.run (step hashes lease) labels source = some target) :
    start + lease ≤ target.now ∨
      Interrupted hashes lease worker id labels source ∨
      Held worker (start + lease) id target := by
  induction labels generalizing source with
  | nil =>
      cases ran
      exact .inr (.inr held)
  | cons label rest inductionHypothesis =>
      obtain ⟨middle, stepped, remaining⟩ := run_cons_eq_some.mp ran
      obtain rfl : source.next hashes lease label = middle :=
        Option.some.inj stepped
      have forward : source.now ≤ (source.next hashes lease label).now :=
        now_le_next label
      by_cases expired : start + lease ≤ source.now
      · left
        have later : ∀ step ∈ rest, ∀ before after : System,
            start + lease ≤ before.now →
              System.step hashes lease step before = some after →
                start + lease ≤ after.now := by
          intro step _ before after late took
          obtain rfl : before.next hashes lease step = after :=
            Option.some.inj took
          exact Nat.le_trans late (now_le_next step)
        exact run_preserves later (Nat.le_trans expired forward) remaining
      · have unexpired : source.now < start + lease := Nat.lt_of_not_le expired
        have renewable : start + lease ≤ source.now + lease :=
          Nat.add_le_add_right begun lease
        rcases held.next hashes label unexpired renewable with kept | broken
        · rcases inductionHypothesis kept (Nat.le_trans begun forward)
              remaining with late | interrupted | stillHeld
          · exact .inl late
          · exact .inr (.inl (interrupted.cons stepped))
          · exact .inr (.inr stillHeld)
        · exact .inr (.inl ⟨[], label, rest, source, _, rfl, rfl, stepped, broken⟩)

/-- Only `complete_publication_and_mark_done` may post without a live lease. -/
theorem action_eq_post {call : StoreCall} {defer : Bool}
    (acts : call.action = some (.post defer)) :
    ∃ publication id response,
      call = .completePublicationAndMarkDone publication id response defer := by
  cases call with
  | completePublicationAndMarkDone publication id response deferDone =>
      obtain rfl : deferDone = defer := by simpa [StoreCall.action] using acts
      exact ⟨publication, id, response, rfl⟩
  | _ => simp [StoreCall.action] at acts

/-- Lease fencing.  A lease granted at a time keeps other workers' claims away
for its whole length, unless its worker gives it back or the job is closed; and
a worker without a live lease changes none of the guarded columns of a job,
except by recording an observed post. -/
theorem lease_fencing :
    (∀ (worker other : WorkerId) (id : JobId) (locked : List JobId)
      (label : SystemLabel) (labels : List SystemLabel)
      (source granted before : System),
      Reachable (step hashes lease) Initial source →
        Grants lease source worker id label →
          step hashes lease label source = some granted →
            run (step hashes lease) labels granted = some before →
              before.Claims lease other locked id → worker ≠ other →
                source.now + lease ≤ before.now ∨
                  Interrupted hashes lease worker id labels granted) ∧
    ∀ (system : System) (worker : WorkerId) (call : StoreCall) (id : JobId)
      (job : Job), system.store.jobs[id]? = some job →
        job.live worker system.now = false →
          (∀ publication number response defer,
            call ≠ .completePublicationAndMarkDone publication number response
              defer) →
            ∃ written,
              (system.next hashes lease (.work worker call)).store.jobs[id]? =
                some written ∧
              written.guarded = job.guarded := by
  constructor
  · intro worker other id locked label labels source granted before reached
      grants stepped ran claims different
    obtain rfl : source.next hashes lease label = granted :=
      Option.some.inj stepped
    have held := grants.held hashes (Constrained.reachable reached)
    rcases held.run (now_le_next label) ran with late | interrupted | stillHeld
    · exact .inl late
    · exact .inr interrupted
    · left
      obtain ⟨row, found, _, idle, _, _⟩ := claims.claimed hashes
      obtain ⟨same, alsoFound, _, ⟨expires, expiry, late⟩, _⟩ := stillHeld
      rw [found] at alsoFound
      cases alsoFound
      simp only [Row.idle, expiry, decide_eq_true_eq] at idle
      exact Nat.le_trans late idle
  · intro system worker call id job found notLive notPost
    cases ran : call.run hashes system.now lease worker system.store with
    | error raised =>
        exact ⟨job, by simpa [System.next, commit, ran] using found, rfl⟩
    | ok outcome =>
        obtain ⟨target, value⟩ := outcome
        have store :
            (system.next hashes lease (.work worker call)).store = target := by
          simp [System.next, commit, ran]
        rw [store]
        rcases StoreCall.run_wrote ran with
          rfl | ⟨before, written, present, rfl, effect⟩
        · exact ⟨job, found, rfl⟩
        · by_cases same : call.job = id
          · subst same
            rw [found] at present
            cases present
            have inside : call.job < system.store.jobs.length :=
              (List.getElem?_eq_some_iff.mp found).1
            refine ⟨written, by simp [Store.setJob, inside], ?_⟩
            rcases effect.guarded with live | kept | ⟨defer, acts⟩
            · rw [notLive] at live
              cases live
            · exact kept
            · obtain ⟨publication, number, response, posts⟩ :=
                action_eq_post acts
              exact absurd posts (notPost publication number response defer)
          · refine ⟨job, ?_, rfl⟩
            simpa [Store.setJob, List.getElem?_set_ne same] using found

/-- The system when the first job of a change has been enqueued. -/
def enqueuedSystem : System :=
  next Hashes.constant 10
    (.enqueue
      { project := "p", changeNumber := 1, patchsetNumber := 1,
        revisionSha := "a" } "v") {}

/-- Worker `b` reclaims the job when the lease of worker `a` has run out. -/
theorem lease_fencing_reclaimed :
    ∃ granted before, step Hashes.constant 10 (.claim "a" []) enqueuedSystem =
        some granted ∧
      run (step Hashes.constant 10) [.tick 10] granted = some before ∧
      before.Claims 10 "b" [] 0 ∧
      (enqueuedSystem.now + 10 ≤ before.now ∨
        Interrupted Hashes.constant 10 "a" 0 [.tick 10] granted) := by
  have reached : Reachable (step Hashes.constant 10) Initial enqueuedSystem :=
    (Reachable.start ⟨rfl, rfl⟩).next rfl
  have claims : enqueuedSystem.Claims 10 "a" [] 0 :=
    Option.map_eq_some_iff.mp
      (show (enqueuedSystem.store.claimNext enqueuedSystem.now 10 "a" []).2.map
        JobRecord.id = some 0 by decide)
  have reclaims :
      ((enqueuedSystem.next Hashes.constant 10 (.claim "a" [])).next
        Hashes.constant 10 (.tick 10)).Claims 10 "b" [] 0 :=
    Option.map_eq_some_iff.mp
      (show (((enqueuedSystem.next Hashes.constant 10 (.claim "a" [])).next
        Hashes.constant 10 (.tick 10)).store.claimNext
          ((enqueuedSystem.next Hashes.constant 10 (.claim "a" [])).next
            Hashes.constant 10 (.tick 10)).now 10 "b" []).2.map
        JobRecord.id = some 0 by decide)
  exact
    ⟨_, _, rfl, rfl, reclaims,
      lease_fencing.1 "a" "b" 0 [] (.claim "a" []) [.tick 10] enqueuedSystem _ _
        reached (.claim [] claims) rfl rfl reclaims (by decide)⟩

end System

end PeReview
