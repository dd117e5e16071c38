import PeReview.Jobs.Fencing
import PeReview.Jobs.Leases

/-!
# Terminal states are final

Whatever is called in any order, a job leaves a terminal state only by an operator
requeue, by an enqueue that opts it back in, or by the record of a post Gerrit has
observed, and nobody holds an unexpired lease of a terminal job.
-/

namespace PeReview

open PeReview.Process

namespace Row

variable {row changed : Row} {now lease : Time} {worker : WorkerId}

theorem idle_of_le {later : Time} (idle : row.idle now) (ordered : now ≤ later) :
    row.idle later := by
  cases known : row.leaseExpiresAt with
  | none =>
      simp [Row.idle, known]
  | some expires =>
      have past : expires ≤ now := by
        simpa [Row.idle, known] using idle
      have still : expires ≤ later := Nat.le_trans past ordered
      simpa [Row.idle, known] using still

/-- Nobody holds an unexpired lease of a row that is terminal. -/
def Settled (now : Time) (row : Row) : Prop :=
  row.state.isTerminal → row.idle now

/-- A worker's action changes a settled terminal row only by recording an observed
post. -/
theorem state_apply {action : RowAction} (terminal : row.state.isTerminal)
    (idle : row.idle now) (guarded : action.guard worker now row) :
    (action.apply now lease row).state = row.state ∨
      action = .post false ∧ row.state = .superseded ∧
        (action.apply now lease row).state = .done := by
  have dead : ¬row.live worker now := not_live_of_idle idle (Nat.le_refl now)
  cases action with
  | extend =>
      exact absurd guarded.1 dead
  | move target release =>
      exact absurd guarded.1 dead
  | park resume =>
      exact absurd guarded.1 dead
  | close target =>
      exact absurd guarded.1 dead
  | save =>
      exact absurd guarded.1 dead
  | begin payload =>
      exact absurd guarded.1 dead
  | mark status =>
      exact .inl rfl
  | post defer =>
      rcases guarded.2 with ⟨publishing, _⟩ | ⟨superseded, rfl⟩
      · rw [publishing] at terminal
        cases terminal
      · exact .inr ⟨rfl, superseded, rfl⟩
  | finish =>
      exact absurd guarded.1 dead

/-- A worker's action leaves a settled row. -/
theorem Settled.apply {action : RowAction} (settled : row.Settled now)
    (guarded : action.guard worker now row) :
    (action.apply now lease row).Settled now := by
  intro terminal
  cases action with
  | extend =>
      obtain ⟨_, opened⟩ := guarded
      have closed : row.state.isTerminal := terminal
      rw [opened] at closed
      cases closed
  | move target release =>
      simp only [RowAction.apply] at terminal ⊢
      split at terminal
      · rename_i released
        rw [if_pos released]
        rfl
      · rename_i kept
        have closed : target.isTerminal := terminal
        simp [closed] at kept
  | park resume =>
      rfl
  | close target =>
      rfl
  | save =>
      rfl
  | begin payload =>
      exact settled terminal
  | mark status =>
      exact settled terminal
  | post defer =>
      cases defer with
      | false =>
          rfl
      | true =>
          cases terminal
  | finish =>
      rfl

/-- An enqueue leaves a settled row. -/
theorem Settled.enqueued (settled : row.Settled now) (step : row.Enqueued changed) :
    changed.Settled now := by
  cases step with
  | keep =>
      exact settled
  | supersede retryState cleared opened notRecovering =>
      exact fun _ => rfl
  | revive skipped =>
      exact nofun
  | reviveOlder skipped =>
      exact fun _ => rfl

theorem Settled.later {after : Time} (settled : row.Settled now)
    (ordered : now ≤ after) :
    row.Settled after :=
  fun terminal => idle_of_le (settled terminal) ordered

end Row

namespace Store

variable {store target : Store} {now : Time} {id : JobId} {job : Job}

/-- The bulk updates leave terminal rows alone. -/
theorem orderedRow_of_isTerminal {older : Job} (terminal : older.state.isTerminal) :
    orderedRow id job older = older := by
  have closed : job.openOlder older = false := by
    simp [Job.openOlder, terminal]
  simp [orderedRow, supersedeOlder, markOlder, closed]

/-- Ordering the patch sets changes no terminal row. -/
theorem applyPatchsetOrdering_terminal (found : store.jobs[id]? = some job)
    {other : JobId} {row : Row} (present : store.row? other = some row)
    (terminal : row.state.isTerminal) :
    (store.applyPatchsetOrdering id job).row? other = some row := by
  rcases applyPatchsetOrdering_cases found with
    ⟨same, _⟩ | ⟨opened, _, changed⟩ | ⟨_, changed⟩
  · rw [same, present]
  · have different : other ≠ id := by
      intro same
      rw [same, row?_of_getElem? found] at present
      cases present
      rw [Job.row_state, opened] at terminal
      cases terminal
    rw [changed, if_neg different, present]
  · obtain ⟨older, known, rfl⟩ := row?_eq_some.mp present
    rw [changed, known, Option.map_some, orderedRow_of_isTerminal terminal]

/-- The row an enqueue finds has the identity of its event. -/
theorem identified_eq_some {event : GerritPatchsetEvent} {policyVersion : String}
    (identified : store.identified event policyVersion = some id)
    (found : store.jobs[id]? = some job) :
    job.hasIdentity event policyVersion := by
  obtain ⟨inside, matching, _⟩ := List.findIdx?_eq_some_iff_getElem.mp identified
  rw [List.getElem?_eq_getElem inside, Option.some.injEq] at found
  rw [← found]
  exact matching

/-- An enqueue changes a terminal row only by opting it back in. -/
theorem enqueue_terminal {event : GerritPatchsetEvent} {policyVersion : String}
    {answer : JobRecord × Bool}
    (ran : store.enqueue now event policyVersion = .ok (target, answer))
    {other : JobId} (found : store.jobs[other]? = some job)
    (terminal : job.state.isTerminal) :
    target.row? other = some job.row ∨
      (revives (store.managedProject event.project) job ∧
        job.hasIdentity event policyVersion) := by
  obtain ⟨record, created⟩ := answer
  simp only [enqueue] at ran
  split at ran
  · obtain ⟨rfl, _, _⟩ := orderAndRead_eq_ok ran
    left
    have inside : other < store.jobs.length := (List.getElem?_eq_some_iff.mp found).1
    apply applyPatchsetOrdering_terminal
    · simp
    · simp [row?, List.getElem?_append_left inside, found]
    · exact terminal
  · rename_i number identified
    split at ran
    · cases ran
    · rename_i known present
      obtain ⟨rfl, _, _⟩ := orderAndRead_eq_ok ran
      have inside : number < store.jobs.length :=
        (List.getElem?_eq_some_iff.mp present).1
      by_cases about : other = number
      · subst about
        rw [found] at present
        cases present
        by_cases revived : revives (store.managedProject event.project) job
        · exact .inr ⟨revived, identified_eq_some identified found⟩
        · left
          rw [if_neg revived]
          apply applyPatchsetOrdering_terminal
          · simp [setJob, inside]
          · exact row?_setJob_self found
          · exact terminal
      · left
        apply applyPatchsetOrdering_terminal
        · simp [setJob, inside]
        · rw [row?_setJob_of_ne present about]
          exact row?_of_getElem? found
        · exact terminal

end Store

namespace System

inductive Leaves (store : Store) (id : JobId) (job : Job) :
    SystemLabel → JobState → Prop
  | requeued (state : JobState) (failed : job.state = .failedPermanent) :
      Leaves store id job (.requeue id) state
  | revived (event : GerritPatchsetEvent) (policyVersion : String)
      (state : JobState) (managed : ManagedProject)
      (skipped : job.state = .skippedScope)
      (about : job.hasIdentity event policyVersion)
      (scope : store.managedProject event.project = some managed)
      (enabled : managed.enabled)
      (includes : managed.reviewStartMode = .includeOpen) :
      Leaves store id job (.enqueue event policyVersion) state
  | completed (worker : WorkerId) (publication : JobId)
      (response : Option GerritResponse) (superseded : job.state = .superseded) :
      Leaves store id job
        (.work worker
          (.completePublicationAndMarkDone publication id response false))
        .done

variable {hashes : Hashes} {lease : Time} {source : System}

inductive RowEffect (lease now : Time) (id : JobId) (row : Row) :
    SystemLabel → Row → Prop
  | worked {changed : Row} (worker : WorkerId) (call : StoreCall)
      (worked : row.Worked lease now id worker call changed) :
      RowEffect lease now id row (.work worker call) changed
  | offered {changed : Row} (worker : WorkerId) (locked : List JobId)
      (offered : row.Offered lease now worker changed) :
      RowEffect lease now id row (.claim worker locked) changed
  | disturbed {label : SystemLabel} {changed : Row}
      (environment : label.isEnvironment) (disturbed : row.Disturbed now changed) :
      RowEffect lease now id row label changed

theorem next_row (hashes : Hashes) (lease : Time) (label : SystemLabel) {id : JobId}
    {row : Row} (found : source.store.row? id = some row) :
    ∃ changed, (source.next hashes lease label).store.row? id = some changed ∧
      RowEffect lease source.now id row label changed := by
  by_cases environment : label.isEnvironment
  · obtain ⟨changed, reached, disturbed⟩ :=
      environment_row hashes lease environment found
    exact ⟨changed, reached, .disturbed environment disturbed⟩
  · cases label with
    | work worker call =>
        obtain ⟨changed, reached, worked⟩ := work_row hashes lease found
        exact ⟨changed, reached, .worked worker call worked⟩
    | claim worker locked =>
        obtain ⟨changed, reached, offered⟩ := claim_row hashes lease found
        exact ⟨changed, reached, .offered worker locked offered⟩
    | _ =>
        exact absurd rfl environment

def Settled (system : System) : Prop :=
  ∀ id row, system.store.row? id = some row → row.Settled system.now

/-- The invariant behind the terminal states. -/
structure Calm (system : System) : Prop where
  settled : system.Settled
  constrained : system.Constrained

theorem Calm.next {label : SystemLabel} (before : source.Calm) :
    (source.next hashes lease label).Calm := by
  obtain ⟨settled, constrained⟩ := before
  refine ⟨?_, constrained.next⟩
  intro id row found
  have forward : source.now ≤ (source.next hashes lease label).now :=
    now_le_next label
  apply Row.Settled.later _ forward
  cases known : source.store.row? id with
  | none =>
      have fresh := fresh_row hashes lease known found
      intro _
      simp [Row.idle, fresh.leaseExpiresAt]
  | some before =>
      have calm := settled id before known
      obtain ⟨changed, reached, effect⟩ := next_row hashes lease label known
      rw [found] at reached
      cases reached
      cases effect with
      | worked worker call worked =>
          cases worked with
          | same =>
              exact calm
          | acted action acts about guarded =>
              exact calm.apply guarded
      | offered worker locked offered =>
          cases offered with
          | same =>
              exact calm
          | claimed opened idle resumable =>
              intro terminal
              have running :=
                (constrained id before known).phase_open resumable opened
              have closed : before.phase.isTerminal := terminal
              rw [running] at closed
              cases closed
          | corrupt waiting unknown idle =>
              exact fun _ => idle
      | disturbed environment disturbed =>
          cases disturbed with
          | enqueued changed step =>
              exact calm.enqueued step
          | requeued failed =>
              exact fun _ => rfl
          | skipped changed step =>
              cases step with
              | keep =>
                  exact calm
              | skip _ _ _ =>
                  exact fun _ => rfl

theorem Calm.reachable {system : System}
    (reached : Reachable (step hashes lease) Initial system) :
    system.Calm := by
  refine reached.invariant ?_ ?_
  · intro system initial
    constructor
    · intro id row found
      simp [Store.row?, initial.1] at found
    · intro id row found
      simp [Store.row?, initial.1] at found
  · intro label source target before stepped
    cases stepped
    exact before.next

theorem terminal_enqueue {id : JobId} {job : Job}
    (found : source.store.jobs[id]? = some job) (terminal : job.state.isTerminal)
    (event : GerritPatchsetEvent) (policyVersion : String) :
    ∃ changed,
      (source.next hashes lease (.enqueue event policyVersion)).store.jobs[id]? =
          some changed ∧
        (changed.state = job.state ∨
          Leaves source.store id job (.enqueue event policyVersion) changed.state) := by
  have present : source.store.row? id = some job.row := Store.row?_of_getElem? found
  rcases commitEnqueue_store source
      (source.store.enqueue source.now event policyVersion)
    with ⟨same, _⟩ | ⟨target, answer, ran, same, _⟩
  · exact ⟨job, by rw [next, same, found], .inl rfl⟩
  · have ordered := Store.enqueue_enqueueing ran
    obtain ⟨changedRow, reached, _⟩ := ordered.old id job.row present
    obtain ⟨changed, known, sameRow⟩ := Store.row?_eq_some.mp reached
    refine ⟨changed, by rw [next, same, known], ?_⟩
    rcases Store.enqueue_terminal ran found terminal with kept | ⟨revived, about⟩
    · left
      rw [reached, Option.some.injEq] at kept
      rw [← Job.row_state, sameRow, kept, Job.row_state]
    · right
      have skipped := Store.revives_skipped revived
      simp only [Store.revives, Bool.and_eq_true] at revived
      cases scope : source.store.managedProject event.project with
      | none =>
          simp [scope] at revived
      | some managed =>
          have opted : managed.enabled = true ∧
              managed.reviewStartMode = .includeOpen := by
            simpa [scope] using revived.2
          exact
            .revived event policyVersion changed.state managed skipped about scope
              opted.1 opted.2

/-- A step changes the state of a terminal job only in one of these ways. -/
theorem terminal_next {id : JobId} {job : Job} (calm : source.Calm)
    (found : source.store.jobs[id]? = some job) (terminal : job.state.isTerminal)
    (label : SystemLabel) :
    ∃ changed, (source.next hashes lease label).store.jobs[id]? = some changed ∧
      (changed.state = job.state ∨
        Leaves source.store id job label changed.state) := by
  have present : source.store.row? id = some job.row := Store.row?_of_getElem? found
  have idle : job.row.idle source.now :=
    calm.settled id job.row present terminal
  have unchanged : ∀ {target : Store} {row : Row},
      target.row? id = some row → row.state = job.state →
        ∃ changed, target.jobs[id]? = some changed ∧
          (changed.state = job.state ∨
            Leaves source.store id job label changed.state) := by
    intro target row reached same
    obtain ⟨changed, known, rfl⟩ := Store.row?_eq_some.mp reached
    exact ⟨changed, known, .inl same⟩
  cases next_change hashes lease source label with
  | none _ same =>
      exact unchanged (by rw [same, present]) rfl
  | work worker call action row acts known guarded written others =>
      by_cases about : id = call.job
      · rw [← about, present] at known
        cases known
        rw [← about] at written
        rcases Row.state_apply terminal idle guarded with
          same | ⟨posts, superseded, done⟩
        · exact unchanged written same
        · rw [posts] at acts
          obtain ⟨publication, posted, response, rfl⟩ := action_eq_post acts
          obtain rfl : id = posted := about
          obtain ⟨changed, reached, sameRow⟩ := Store.row?_eq_some.mp written
          refine ⟨changed, reached, .inr ?_⟩
          have closed : changed.state = .done := by
            rw [← Job.row_state, sameRow, done]
          rw [closed]
          exact .completed worker publication response superseded
      · exact unchanged (by rw [others id about, present]) rfl
  | claim worker locked other row known opened free resumable gated written others =>
      by_cases about : id = other
      · rw [← about, present] at known
        cases known
        rw [Job.row_state, terminal] at opened
        cases opened
      · exact unchanged (by rw [others id about, present]) rfl
  | corrupt worker locked other row known waiting unknown free written others =>
      by_cases about : id = other
      · rw [← about, present] at known
        cases known
        rw [← Job.row_state, waiting] at terminal
        cases terminal
      · exact unchanged (by rw [others id about, present]) rfl
  | enqueue event policyVersion other ordered =>
      exact terminal_enqueue found terminal event policyVersion
  | requeue other row known failed latest written others =>
      by_cases about : id = other
      · subst about
        rw [present] at known
        cases known
        obtain ⟨changed, reached, _⟩ := Store.row?_eq_some.mp written
        exact ⟨changed, reached, .inr (.requeued changed.state failed)⟩
      · exact unchanged (by rw [others id about, present]) rfl
  | skip _ skipping =>
      obtain ⟨row, reached, step⟩ := skipping.1 id job.row present
      cases step with
      | keep =>
          exact unchanged reached rfl
      | skip opened free unpublished =>
          rw [Job.row_state, terminal] at opened
          cases opened

def IsDone (id : JobId) (system : System) : Prop :=
  ∃ job, system.store.jobs[id]? = some job ∧ job.state = .done

theorem IsDone.next {id : JobId} {label : SystemLabel} (done : IsDone id source)
    (calm : source.Calm) :
    IsDone id (source.next hashes lease label) := by
  obtain ⟨job, found, closed⟩ := done
  have terminal : job.state.isTerminal := by
    rw [closed]
    rfl
  obtain ⟨changed, present, same | leaves⟩ :=
    @terminal_next hashes lease source id job calm found terminal label
  · exact ⟨changed, present, same.trans closed⟩
  · generalize changed.state = state at leaves
    cases leaves with
    | requeued _ failed =>
        rw [closed] at failed
        cases failed
    | revived _ _ _ _ skipped =>
        rw [closed] at skipped
        cases skipped
    | completed _ _ _ superseded =>
        rw [closed] at superseded
        cases superseded

/-- A job that is done stays so in every later state. -/
theorem IsDone.run {id : JobId} {target : System} {labels : List SystemLabel}
    (done : IsDone id source) (calm : source.Calm)
    (ran : run (step hashes lease) labels source = some target) :
    IsDone id target := by
  have kept : ∀ label ∈ labels, ∀ before after : System,
      before.Calm ∧ IsDone id before →
        step hashes lease label before = some after →
          after.Calm ∧ IsDone id after := by
    intro label _ before after both stepped
    cases stepped
    exact ⟨both.1.next, both.2.next both.1⟩
  exact (run_preserves kept ⟨calm, done⟩ ran).2

/-- Terminal states are final.  A terminal job carries no unexpired lease; every
step leaves its state or takes one of the ways out; and no run leads out of
`DONE`. -/
theorem terminal_states_final {system : System} {id : JobId} {job : Job}
    (reached : Reachable (step hashes lease) Initial system)
    (found : system.store.jobs[id]? = some job) (terminal : job.state.isTerminal) :
    (∀ expires, job.leaseExpiresAt = some expires → expires ≤ system.now) ∧
      (∀ label target, step hashes lease label system = some target →
        ∃ changed, target.store.jobs[id]? = some changed ∧
          (changed.state = job.state ∨
            Leaves system.store id job label changed.state)) ∧
      (job.state = .done →
        ∀ labels target, run (step hashes lease) labels system = some target →
          ∃ changed, target.store.jobs[id]? = some changed ∧
            changed.state = .done) := by
  have calm : system.Calm := .reachable reached
  refine ⟨?_, ?_, ?_⟩
  · intro expires known
    have idle : job.row.idle system.now :=
      calm.settled id job.row (Store.row?_of_getElem? found) terminal
    simpa [Row.idle, Job.row, known] using idle
  · intro label target stepped
    cases stepped
    exact terminal_next calm found terminal label
  · intro done labels target ran
    exact IsDone.run ⟨job, found, done⟩ calm ran

/-- A run in which a job is done without a publication. -/
def finishingRun : List SystemLabel :=
  [.enqueue
      { project := "p", changeNumber := 1, patchsetNumber := 1,
        revisionSha := "a" } "v",
    .claim "w" [], .work "w" (.transition 0 .fetching false),
    .work "w" (.transition 0 .reviewing false),
    .work "w" (.transition 0 .validating false),
    .work "w" (.saveReviewResultAndMarkReady 0 { summary := "s" }),
    .claim "w" [], .work "w" (.transition 0 .publishing false),
    .work "w" (.transition 0 .done true)]

def finishedSystem : System :=
  (run (step Hashes.constant 10) finishingRun {}).getD {}

theorem terminal_states_final_done :
    (finishedSystem.store.jobs[0]?).map Job.state = some .done ∧
      ∀ labels target,
        run (step Hashes.constant 10) labels finishedSystem = some target →
          ∃ changed, target.store.jobs[0]? = some changed ∧ changed.state = .done := by
  have reached : Reachable (step Hashes.constant 10) Initial finishedSystem := by
    refine ⟨{}, finishingRun, ⟨rfl, rfl⟩, ?_⟩
    have runs : (run (step Hashes.constant 10) finishingRun {}).isSome := by
      decide
    obtain ⟨final, known⟩ := Option.isSome_iff_exists.mp runs
    simp [finishedSystem, known]
  have found : finishedSystem.store.jobs[0]? =
      some (finishedSystem.store.jobs[0]?.get (by decide)) :=
    (Option.some_get _).symm
  refine ⟨by decide, ?_⟩
  exact (terminal_states_final reached found (by decide)).2.2 (by decide)

end System

end PeReview
