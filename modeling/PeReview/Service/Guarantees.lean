import PeReview.Service.Safety.Worker

/-!
# What the service guarantees about publications

At most one review of a job is committed, with the payload its publication was
begun with; a job with an unknown outcome is not closed; and a POSTED publication
stays POSTED unless a worker without a lease overwrites it.
-/

namespace PeReview

open PeReview.Process

namespace World

variable {hashes : Hashes} {lease : Time} {worker : WorkerId}
  {source target : World}

/-- The publication of the job as it was, with the same status. -/
theorem posted_iff {id : JobId} {world : World} :
    world.posted id = true ↔
      ∃ row, world.row? id = some row ∧ row.status = some .posted := by
  unfold posted row?
  cases world.system.store.row? id <;> simp [Row.status]

/-- A POSTED publication is kept by a step that keeps it on its row. -/
theorem Rows.posted {change : JobId → Row → Row → Prop} {id : JobId}
    (rows : Rows change source target)
    (kept : ∀ row changed, source.row? id = some row → change id row changed →
      row.status = some .posted → changed.status = some .posted)
    (posted : source.posted id = true) :
    target.posted id = true := by
  obtain ⟨row, found, known⟩ := posted_iff.mp posted
  obtain ⟨changed, reached, step⟩ := rows.old id row found
  exact posted_iff.mpr ⟨changed, reached, kept row changed found step known⟩

theorem Transacted.posted {call : StoreCall} {id : JobId}
    (ran : Transacted hashes lease worker call source target)
    (allowed : source.Allowed worker (.store call))
    (clean : target.overwritten id = false) (posted : source.posted id = true) :
    target.posted id = true := by
  refine ran.rows.posted ?_ posted
  intro row changed found worked known
  refine worked.posted ?_ known
  rintro rfl status acts
  exact
    Permits.unmarked (allowed.2 _ acts) acts
      (fun downgrades => (ran.overwritten call.job clean).2 rfl downgrades) found
      known

/-- A call to anything but the job store leaves the database alone. -/
theorem Requested.system {request : Call} {answer : Answer request}
    (ran : Requested worker source request target answer) :
    target.system = source.system ∧ target.overwritten = source.overwritten ∧
      target.stale = source.stale := by
  cases ran <;> exact ⟨rfl, rfl, rfl⟩

theorem posted_of_system {id : JobId} (same : target.system = source.system) :
    target.posted id = source.posted id := by
  rw [posted, posted, same]

theorem act_posted {request : Call} {choice : Choice} {answer : Answer request}
    {id : JobId} (allowed : source.Allowed worker request)
    (acted : act hashes lease worker request choice source =
      some (target, answer))
    (clean : target.overwritten id = false) (posted : source.posted id = true) :
    target.posted id = true := by
  by_cases stored : ∃ call, request = .store call
  · obtain ⟨call, rfl⟩ := stored
    rcases act_store acted with ⟨rfl, _⟩ | ⟨ran, _⟩ | ⟨ran, _⟩
    · exact posted
    · exact ran.posted allowed clean posted
    · exact ran.posted allowed clean posted
  · push Not at stored
    rw [posted_of_system (act_request stored acted).system.1]
    exact posted

/-- The history of overwritten publications after a transaction. -/
theorem transact_history (call : StoreCall) :
    (source.transact hashes lease worker call).overwritten =
      if call.downgrades && source.posted call.job &&
          !source.live worker call.job then
        Function.update source.overwritten call.job true
      else source.overwritten := by
  dsimp only [transact]
  by_cases overwrites :
      (call.downgrades && source.posted call.job && !source.live worker call.job) =
        true
  · simp only [if_pos overwrites]
    split <;> rfl
  · simp only [if_neg overwrites]
    split <;> rfl

theorem transact_overwritten {call : StoreCall} {id : JobId}
    (clean : source.overwritten id = false) :
    (source.transact hashes lease worker call).overwritten id = false ∨
      (call.downgrades = true ∧ call.job = id ∧ source.posted id = true ∧
        source.live worker id = false) := by
  rw [transact_history]
  split
  · rename_i overwrites
    simp only [Bool.and_eq_true, Bool.not_eq_true'] at overwrites
    by_cases same : call.job = id
    · subst same
      exact .inr ⟨overwrites.1.1, rfl, overwrites.1.2, overwrites.2⟩
    · left
      simpa [Ne.symm same] using clean
  · exact .inl clean

/-- Only a store call can overwrite a POSTED publication. -/
theorem act_overwritten {request : Call} {choice : Choice}
    {answer : Answer request} {id : JobId}
    (acted : act hashes lease worker request choice source =
      some (target, answer))
    (clean : source.overwritten id = false) :
    target.overwritten id = false ∨
      ∃ call, request = .store call ∧ choice.lost ≠ some false ∧
        call.downgrades = true ∧ call.job = id ∧ source.posted id = true ∧
          source.live worker id = false := by
  by_cases stored : ∃ call, request = .store call
  · obtain ⟨call, rfl⟩ := stored
    have transacted :=
      @transact_overwritten hashes lease worker source call id clean
    simp only [act] at acted
    split at acted
    · cases acted
      exact .inl clean
    · rename_i lost
      cases acted
      exact transacted.imp_right fun overwrites =>
        ⟨call, rfl, by rw [lost]; decide, overwrites⟩
    · rename_i lost
      obtain ⟨reached, _⟩ := Prod.mk.inj (Option.some.inj acted)
      have same : target.overwritten =
          (source.transact hashes lease worker call).overwritten := by
        rw [← reached]
        split <;> rfl
      rw [same]
      exact transacted.imp_right fun overwrites =>
        ⟨call, rfl, by rw [lost]; decide, overwrites⟩
  · push Not at stored
    left
    rw [(act_request stored acted).system.2.1]
    exact clean

theorem act_stale {request : Call} {choice : Choice} {answer : Answer request}
    (acted : act hashes lease worker request choice source =
      some (target, answer)) :
    target.stale = source.stale := by
  by_cases stored : ∃ call, request = .store call
  · obtain ⟨call, rfl⟩ := stored
    rcases act_store acted with ⟨rfl, _⟩ | ⟨ran, _⟩ | ⟨ran, _⟩
    · rfl
    · exact ran.stale
    · exact ran.stale
  · push Not at stored
    exact (act_request stored acted).system.2.2

/-- Only a worker that overstays its lease is noted. -/
theorem note_tidy {id : JobId} (tidy : source.stale id = false)
    (leased : World.Working worker id source → source.live worker id = true) :
    (source.note worker).stale id = false := by
  rcases note_cases worker source with same | ⟨noted, claimed, unreleased, lost, same⟩
  · rw [same]
    exact tidy
  · rw [same]
    have different : id ≠ noted := by
      rintro rfl
      rw [leased ⟨claimed, unreleased⟩] at lost
      cases lost
    simp [different, tidy]

/-- A claim changes the database and the record of its worker. -/
theorem begin_framed (reviewer : ReviewWorker) (seed : Seed) {target : World}
    {program : Program Call Answer Unit}
    (begun : source.begin reviewer worker seed = (target, program)) :
    target.system =
        source.system.next reviewer.hashes reviewer.settings.claimLease
          (.claim worker seed.locked) ∧
      target.overwritten = source.overwritten ∧ target.stale = source.stale := by
  simp only [begin] at begun
  split at begun
  · cases begun
    exact ⟨rfl, rfl, rfl⟩
  · split at begun
    · cases begun
      exact ⟨rfl, rfl, rfl⟩
    · cases begun
      exact ⟨rfl, rfl, rfl⟩

theorem begin_posted {reviewer : ReviewWorker} {seed : Seed}
    {program : Program Call Answer Unit} {id : JobId}
    (begun : source.begin reviewer worker seed = (target, program))
    (posted : source.posted id = true) :
    target.posted id = true := by
  have claimed :
      World.posted id
        { source with
          system :=
            source.system.next reviewer.hashes reviewer.settings.claimLease
              (.claim worker seed.locked) } = true :=
    (rows_claim seed.locked).posted
      (fun _ _ _ offered known => offered.posted.trans known) posted
  rw [← claimed]
  exact posted_of_system (begin_framed reviewer seed begun).1

/-- What happens without a worker's doing keeps the history. -/
theorem happen_framed {event : Event}
    (happened : happen hashes lease event source = some target) :
    target.overwritten = source.overwritten ∧ target.stale = source.stale := by
  cases event with
  | environment label =>
      simp only [happen] at happened
      split at happened
      · cases happened
        exact ⟨rfl, rfl⟩
      · cases happened
  | heartbeat worker id =>
      cases happened
      exact ⟨rfl, rfl⟩
  | commit id number =>
      simp only [happen] at happened
      split at happened
      · cases happened
      · split at happened
        · cases happened
          exact ⟨rfl, rfl⟩
        · cases happened

theorem happen_posted {event : Event} {id : JobId}
    (happened : happen hashes lease event source = some target)
    (posted : source.posted id = true) :
    target.posted id = true := by
  cases event with
  | environment label =>
      simp only [happen] at happened
      split at happened
      · rename_i environment
        cases happened
        exact
          (rows_environment environment).posted
            (fun _ _ _ disturbed known => disturbed.posted known) posted
      · cases happened
  | heartbeat worker job =>
      cases happened
      refine (rows_heartbeat job).posted ?_ posted
      intro row changed _ worked known
      refine worked.posted ?_ known
      intro _ status acts
      cases acts
  | commit job number =>
      simp only [happen] at happened
      split at happened
      · cases happened
      · split at happened
        · cases happened
          exact posted
        · cases happened

end World

namespace Service

/-- A worker that has lost its lease on the job goes on with it. -/
def overstays (id : JobId) :
    PoolLabel WorkerId Choice World.Seed World.Event → Service → Bool
  | .call worker _, service =>
      (service.shared.sessions worker).job = some id &&
        !(service.shared.sessions worker).released &&
        !service.shared.live worker id
  | _, _ => false

/-- A worker without a lease on the job commits `mark_publication_ambiguous` or
`mark_publication_failed` on its POSTED publication. -/
def overwrites (id : JobId) :
    PoolLabel WorkerId Choice World.Seed World.Event → Service → Bool
  | .call worker choice, service =>
      match service.threads worker with
      | .call (.store call) _ =>
          choice.lost ≠ some false && call.downgrades && call.job = id &&
            service.shared.posted id && !service.shared.live worker id
      | _ => false
  | _, _ => false

variable {reviewer : ReviewWorker} {source target : Service} {id : JobId}
  {label : PoolLabel WorkerId Choice World.Seed World.Event}

/-- The durable payload of a publication is kept. -/
theorem stored_step {input : ReviewInput}
    (before : Pool.Disciplined (World.discipline reviewer) source)
    (stored : source.shared.Stored id input)
    (stepped : step reviewer label source = some target) :
    target.shared.Stored id input := by
  rcases before.tolerated stepped with kept | ⟨worker, kept⟩
  · exact (kept "" id).stored input stored
  · obtain ⟨other, different⟩ : ∃ other, worker ≠ other := by
      by_cases same : worker = ""
      · exact ⟨"w", by rw [same]; decide⟩
      · exact ⟨"", same⟩
    exact (kept other id different).stored input stored

/-- No worker overstays its lease in a step that is not noted. -/
theorem tidy_step (leased : overstays id label source = false)
    (tidy : source.shared.stale id = false)
    (stepped : step reviewer label source = some target) :
    target.shared.stale id = false := by
  rcases Pool.step_cases stepped with
    ⟨worker, choice, request, next, shared, answer, rfl, _, performed, rfl⟩ |
    ⟨_, _, rfl⟩ | ⟨worker, seed, shared, program, _, begun, rfl⟩ |
    ⟨event, shared, _, happened, rfl⟩
  · show shared.stale id = false
    rw [World.act_stale performed]
    refine World.note_tidy tidy ?_
    rintro ⟨claimed, unreleased⟩
    simpa [overstays, claimed, unreleased] using leased
  · exact tidy
  · show shared.stale id = false
    rw [(World.begin_framed reviewer seed (Option.some.inj begun)).2.2]
    exact tidy
  · show shared.stale id = false
    rw [(World.happen_framed happened).2]
    exact tidy

/-- A step that overwrites no POSTED publication leaves no trace of one. -/
theorem clean_step (guarded : overwrites id label source = false)
    (clean : source.shared.overwritten id = false)
    (stepped : step reviewer label source = some target) :
    target.shared.overwritten id = false := by
  rcases Pool.step_cases stepped with
    ⟨worker, choice, request, next, shared, answer, rfl, thread, performed, rfl⟩ |
    ⟨_, _, rfl⟩ | ⟨worker, seed, shared, program, _, begun, rfl⟩ |
    ⟨event, shared, _, happened, rfl⟩
  · show shared.overwritten id = false
    have cleanNote : (source.shared.note worker).overwritten id = false := by
      rw [World.note_overwritten]
      exact clean
    rcases World.act_overwritten performed cleanNote with
      kept | ⟨call, rfl, commits, downgrades, about, posted, expired⟩
    · exact kept
    · rw [World.posted_of_system World.note_system] at posted
      have expiredBefore : source.shared.live worker id = false := by
        rw [World.live] at expired ⊢
        rwa [World.note_system] at expired
      simp [overwrites, thread, commits, downgrades, about, posted,
        expiredBefore] at guarded
  · exact clean
  · show shared.overwritten id = false
    rw [(World.begin_framed reviewer seed (Option.some.inj begun)).2.1]
    exact clean
  · show shared.overwritten id = false
    rw [(World.happen_framed happened).1]
    exact clean

/-- A POSTED publication stays POSTED in a step after which nothing has been
overwritten. -/
theorem posted_step
    (before : Pool.Disciplined (World.discipline reviewer) source)
    (clean : target.shared.overwritten id = false)
    (posted : source.shared.posted id = true)
    (stepped : step reviewer label source = some target) :
    target.shared.posted id = true := by
  rcases Pool.step_cases stepped with
    ⟨worker, choice, request, next, shared, answer, rfl, thread, performed, rfl⟩ |
    ⟨_, _, rfl⟩ | ⟨worker, seed, shared, program, _, begun, rfl⟩ |
    ⟨event, shared, _, happened, rfl⟩
  · have allowed : source.shared.Allowed worker request := before.allowed thread
    refine World.act_posted allowed.note performed clean ?_
    rw [World.posted_of_system World.note_system]
    exact posted
  · exact posted
  · show shared.posted id = true
    exact World.begin_posted (Option.some.inj begun) posted
  · exact World.happen_posted happened posted

/-- A worker whose engine has nothing to report. -/
def quietReviewer : ReviewWorker where
  settings :=
    { claimLease := 10, fetchAttempts := 1, reviewAttempts := 1
      publishAttempts := 1, llmProviderAttempts := 1, llmProviderMaxWait := 1
      outputLanguage := "en-US", maxFindings := 1, maxPolicyBytes := 0
      maxContextFileBytes := 0, reviewTag := "t", notify := "NONE"
      maxCommentBytes := 1024 }
  hashes := Hashes.constant
  engine := fun _ =>
    { review := fun _ => .done (.ok { summary := "s" })
      recoverCompleted := fun _ =>
        .done (.ok (some
          { summary := "s", reviewMetadata := { lineageComplete := some false } })) }

/-- Everything a call asks for is there, and the messages of the change do or do
not contain the review. -/
def favourable (found : Bool) : Choice where
  change := .ok { currentRevision := "a", status := "NEW" }
  workspace :=
    .ok
      { project := "p", revisionSha := "a", baseRevisionSha := none, root := "r"
        diff := [], changedFiles := [], changedLines := [] }
  messages := .ok found

/-- The only job is reviewed by worker `a`, whose POST leaves and commits. -/
def postingRun : List (PoolLabel WorkerId Choice World.Seed World.Event) :=
  [.event (.environment (.enqueue
      { project := "p", changeNumber := 1, patchsetNumber := 1,
        revisionSha := "a" } "v")),
    .spawn "a" {}] ++
  List.replicate 15 (.call "a" (favourable false)) ++
  [.spawn "a" {}] ++
  List.replicate 19 (.call "a" (favourable false)) ++
  [.event (.commit 0 0)]

/-- The lease of worker `a` runs out inside its call, and worker `b` recovers the
post. -/
def recoveryRun : List (PoolLabel WorkerId Choice World.Seed World.Event) :=
  [.event (.environment (.tick 10)), .spawn "b" {}] ++
  List.replicate 13 (.call "b" (favourable true))

/-- Worker `a` learns that the outcome of its POST is unknown, and runs its error
handler. -/
def lateRun : List (PoolLabel WorkerId Choice World.Seed World.Event) :=
  List.replicate 3 (.call "a" (favourable false))

def idle : Service where
  threads := fun _ => .done ()
  shared := {}

theorem idle_initial : idle.Initial :=
  ⟨rfl, {}, ⟨rfl, rfl⟩, rfl⟩

/-- A run leads somewhere, when a fact can be checked of the place it leads to. -/
theorem leads_to (labels : List (PoolLabel WorkerId Choice World.Seed World.Event))
    (fact : Service → Prop) [∀ service, Decidable (fact service)]
    (checked : ((run (step quietReviewer) labels idle).map fun service =>
      decide (fact service)) = some true) :
    ∃ target, run (step quietReviewer) labels idle = some target ∧
      fact target := by
  obtain ⟨target, ran, holds⟩ := Option.map_eq_some_iff.mp checked
  exact ⟨target, ran, of_decide_eq_true holds⟩

section Runs

variable {first second labels :
    List (PoolLabel WorkerId Choice World.Seed World.Event)}
  {start middle : Service}

theorem stored_run {input : ReviewInput}
    (reached : Reachable (step reviewer) Initial source)
    (stored : source.shared.Stored id input)
    (ran : run (step reviewer) labels source = some target) :
    target.shared.Stored id input := by
  let kept : Service → Prop := fun service =>
    Reachable (step reviewer) Initial service ∧ service.shared.Stored id input
  have holds : kept target :=
    run_preserves
      (fun _ _ _ _ holds stepped =>
        ⟨holds.1.next stepped, stored_step (disciplined holds.1) holds.2 stepped⟩)
      ⟨reached, stored⟩ ran
  exact holds.2

theorem tidy_run (initial : Initial start)
    (leased : Along (step reviewer)
      (fun label service => overstays id label service = false) labels start)
    (ran : run (step reviewer) labels start = some target) :
    target.shared.stale id = false := by
  refine leased.preserves (fun label source target leased tidy stepped =>
    tidy_step leased tidy stepped) ?_ ran
  obtain ⟨_, system, _, shared⟩ := initial
  rw [shared]

theorem clean_run (initial : Initial start)
    (guarded : Along (step reviewer)
      (fun label service => overwrites id label service = false) labels start)
    (ran : run (step reviewer) labels start = some target) :
    target.shared.overwritten id = false := by
  refine guarded.preserves (fun label source target guarded clean stepped =>
    clean_step guarded clean stepped) ?_ ran
  obtain ⟨_, system, _, shared⟩ := initial
  rw [shared]

/-- At most one review of a job is ever committed, whatever the workers, crashes
and lost answers; and its payload is the durable payload of the publication, which
is the one the publication had in every earlier state. -/
theorem one_review (initial : Initial start)
    (ran : run (step reviewer) first start = some middle)
    (went : run (step reviewer) second middle = some target) (id : JobId) :
    (target.shared.committed.filter fun post => post.job = id).length ≤ 1 ∧
      ∀ post ∈ target.shared.committed, post.job = id →
        target.shared.Stored id post.payload ∧
          ∀ input, middle.shared.Stored id input → post.payload = input := by
  have reachedMiddle : Reachable (step reviewer) Initial middle :=
    ⟨start, first, initial, ran⟩
  have valid := Service.valid (reachedMiddle.extend went)
  refine ⟨valid.once id, ?_⟩
  rintro post member rfl
  have stored := valid.stored post (.inr member)
  refine ⟨stored, ?_⟩
  intro input before
  obtain ⟨row, found, known⟩ := stored
  obtain ⟨other, foundAgain, kept⟩ := stored_run reachedMiddle before went
  rw [found] at foundAgain
  cases foundAgain
  rw [known] at kept
  exact Option.some.inj kept

/-- The POST of the run is the only review of the job. -/
theorem one_review_recovered :
    ∃ middle target, run (step quietReviewer) postingRun idle = some middle ∧
      run (step quietReviewer) recoveryRun middle = some target ∧
      target.shared.committed ≠ [] ∧
      (target.shared.committed.filter fun post => post.job = 0).length ≤ 1 := by
  obtain ⟨target, ran, committed⟩ :=
    leads_to (postingRun ++ recoveryRun)
      (fun service => service.shared.committed ≠ []) (by decide +kernel)
  obtain ⟨middle, first, second⟩ := run_append_eq_some.mp ran
  exact
    ⟨middle, target, first, second, committed,
      (one_review idle_initial first second 0).1⟩

/-- As long as no worker overstays its lease on the job, the job is not closed
before the outcome of the last POST is known; until then it is in publication
recovery with an AMBIGUOUS publication. -/
theorem closed_with_evidence (initial : Initial start)
    (ran : run (step reviewer) labels start = some target) (id : JobId)
    (leased : Along (step reviewer)
      (fun label service => overstays id label service = false) labels start) :
    (∀ row, target.shared.row? id = some row → row.state.isTerminal = true →
        target.shared.resolved id = target.shared.dispatched id) ∧
      (target.shared.resolved id ≠ target.shared.dispatched id →
        ∃ row, target.shared.row? id = some row ∧ row.recovering = true ∧
          row.status = some .ambiguous) := by
  have valid := Service.valid ⟨start, labels, initial, ran⟩
  have tidy := tidy_run initial leased ran
  have open_ : target.shared.resolved id ≠ target.shared.dispatched id →
      ∃ row, target.shared.row? id = some row ∧ row.recovering = true ∧
        row.status = some .ambiguous :=
    fun unknown =>
      valid.tracked id tidy (Nat.lt_of_le_of_ne (valid.counted id) unknown)
  refine ⟨?_, open_⟩
  intro row found terminal
  by_contra unknown
  obtain ⟨other, foundAgain, recovering, _⟩ := open_ unknown
  rw [found] at foundAgain
  cases foundAgain
  cases state : row.state <;>
    simp_all [Row.recovering, JobState.isTerminal]

/-- Worker `b` closes the job with the answer of its lookup. -/
theorem closed_with_evidence_recovered :
    ∃ target row,
      run (step quietReviewer) (postingRun ++ recoveryRun) idle = some target ∧
      target.shared.row? 0 = some row ∧ row.state.isTerminal = true ∧
      target.shared.resolved 0 = target.shared.dispatched 0 := by
  obtain ⟨target, ran, closed⟩ :=
    leads_to (postingRun ++ recoveryRun)
      (fun service =>
        (service.shared.row? 0).map (fun row => row.state.isTerminal) = some true)
      (by decide +kernel)
  obtain ⟨row, found, terminal⟩ := Option.map_eq_some_iff.mp closed
  exact
    ⟨target, row, ran, found, terminal,
      (closed_with_evidence idle_initial ran 0 (by decide +kernel)).1 row found
        terminal⟩

/-- In every run in which no worker without a lease marks a POSTED publication
AMBIGUOUS or FAILED, a POSTED publication stays POSTED, and the publication of a
job that is DONE is POSTED. -/
theorem posted_absorbing (initial : Initial start)
    (ran : run (step reviewer) first start = some middle)
    (went : run (step reviewer) second middle = some target) (id : JobId)
    (guarded : Along (step reviewer)
      (fun label service => overwrites id label service = false) (first ++ second)
        start) :
    (middle.shared.posted id = true → target.shared.posted id = true) ∧
      ∀ row, target.shared.row? id = some row → row.state = .done →
        row.publication.isSome = true → row.status = some .posted := by
  obtain ⟨guardedFirst, guardedSecond⟩ := guarded.append ran
  have reachedMiddle : Reachable (step reviewer) Initial middle :=
    ⟨start, first, initial, ran⟩
  have cleanMiddle := clean_run initial guardedFirst ran
  constructor
  · intro posted
    let kept : Service → Prop := fun service =>
      Reachable (step reviewer) Initial service ∧
        service.shared.overwritten id = false ∧ service.shared.posted id = true
    have holds : kept target :=
      guardedSecond.preserves
        (fun label source target guarded ⟨reached, clean, posted⟩ stepped =>
          have cleanAfter := clean_step guarded clean stepped
          ⟨reached.next stepped, cleanAfter,
            posted_step (disciplined reached) cleanAfter posted stepped⟩)
        ⟨reachedMiddle, cleanMiddle, posted⟩ went
    exact holds.2.2
  · have clean : target.shared.overwritten id = false :=
      clean_run initial guarded (run_append_eq_some.mpr ⟨middle, ran, went⟩)
    have valid := Service.valid (reachedMiddle.extend went)
    intro row found
    exact valid.done id row clean found

/-- Before the error handler of worker `a` runs, the publication is POSTED. -/
theorem posted_absorbing_recovered :
    ∃ middle target, run (step quietReviewer) postingRun idle = some middle ∧
      run (step quietReviewer) recoveryRun middle = some target ∧
      ∀ row, target.shared.row? 0 = some row → row.state = .done →
        row.publication.isSome = true → row.status = some .posted := by
  obtain ⟨target, ran, _⟩ :=
    leads_to (postingRun ++ recoveryRun)
      (fun service => service.shared.posted 0 = true) (by decide +kernel)
  obtain ⟨middle, first, second⟩ := run_append_eq_some.mp ran
  exact
    ⟨middle, target, first, second,
      (posted_absorbing idle_initial first second 0 (by decide +kernel)).2⟩

/-- The error handler of worker `a` takes POSTED back, of a job that is DONE. -/
theorem posted_overwritten :
    ∃ middle target, run (step quietReviewer) (postingRun ++ recoveryRun) idle =
        some middle ∧
      run (step quietReviewer) lateRun middle = some target ∧
      middle.shared.posted 0 = true ∧
      ∃ row, target.shared.row? 0 = some row ∧ row.state = .done ∧
        row.status = some .ambiguous := by
  obtain ⟨middle, first, posted⟩ :=
    leads_to (postingRun ++ recoveryRun)
      (fun service => service.shared.posted 0 = true) (by decide +kernel)
  obtain ⟨target, ran, ends⟩ :=
    leads_to ((postingRun ++ recoveryRun) ++ lateRun)
      (fun service =>
        (service.shared.row? 0).map (fun row => (row.state, row.status)) =
          some (.done, some .ambiguous))
      (by decide +kernel)
  obtain ⟨other, firstAgain, second⟩ := run_append_eq_some.mp ran
  rw [first] at firstAgain
  cases firstAgain
  obtain ⟨row, found, known⟩ := Option.map_eq_some_iff.mp ends
  obtain ⟨state, status⟩ := Prod.mk.inj known
  exact ⟨middle, target, first, second, posted, row, found, state, status⟩

end Runs

end Service

end PeReview
