import PeReview.Service.Safety.Review

/-!
# Every worker keeps the discipline

A claimed row was idle, so that no earlier POST of its job can still commit.
From there `runClaimed` keeps the discipline, and so does every reachable pool.
-/

namespace PeReview

open PeReview.Process

/-- What a worker knows right after its claim. -/
def Knowledge.claimed (state : JobState) : Knowledge :=
  { states := fun current => current = state, silent := true, working := true }

namespace Site.Triple

variable {site : Site} {worker : ReviewWorker} {job : JobRecord}

theorem processClaimed (about : job.id = site.id) :
    site.Triple (Knowledge.claimed job.state) (processClaimed worker job)
      (fun _ => {}) fun _ => {} := by
  have ends : ∀ known : Knowledge, known.Implies {} := Knowledge.implies_nothing
  have reviews : job.state ≠ .publishing →
      site.Triple (Knowledge.claimed job.state) (PeReview.processReview worker job)
        (fun _ => {}) fun _ => {} := by
    intro elsewhere
    refine strengthen (processReview about elsewhere) ?_
    intro _
    constructor <;> simp [Knowledge.reviewing, Knowledge.claimed]
  have refuses : ∀ error, job.state ≠ .publishing →
      site.Triple (Knowledge.claimed job.state)
        (PeReview.permanentFailure job error) (fun _ => {}) fun _ => {} := by
    intro error elsewhere
    refine consequence (permanentFailure about rfl ⟨rfl, .inr (.inl ?_)⟩) (.refl _)
      (fun _ => ends _) fun _ => ends _
    rintro state rfl
    exact elsewhere
  unfold PeReview.processClaimed
  split
  · rename_i state
    exact reviews (by simp [state])
  · rename_i state
    exact reviews (by simp [state])
  · rename_i state
    exact reviews (by simp [state])
  · rename_i state
    exact reviews (by simp [state])
  · rename_i state
    exact processPublish about (.inl state)
  · rename_i state
    exact processPublish about (.inr state)
  · exact pure (ends _)
  · exact pure (ends _)
  · exact pure (ends _)
  · exact pure (ends _)
  · rename_i state
    exact refuses _ (by simp [state])
  · rename_i state
    exact refuses _ (by simp [state])

end Site.Triple

namespace World

variable {reviewer : ReviewWorker} {worker : WorkerId} {source : World}

/-- A claim finds a row nobody holds, and leaves it in the state it reports. -/
theorem claimNext_row {locked : List JobId} {lease : Time} (hashes : Hashes)
    {record : JobRecord}
    (claimed : (source.system.store.claimNext source.now lease worker locked).2 =
      some record) :
    ∃ row changed, source.row? record.id = some row ∧ row.idle source.now ∧
      (source.system.next hashes lease (.claim worker locked)).store.row?
          record.id = some changed ∧
        changed.state = record.state := by
  cases ran : source.system.store.claimNext source.now lease worker locked with
  | mk store answer =>
      rw [ran] at claimed
      obtain rfl : answer = some record := claimed
      rcases Store.claimNext_cases ran with ⟨_, absent⟩ |
        ⟨number, job, written, found, claimable, same, outcome⟩
      · cases absent
      · rcases outcome with ⟨_, _, absent, _⟩ | ⟨returned, _, _⟩
        · cases absent
        · cases returned
          obtain ⟨_, idle, _⟩ := Store.claimable_iff claimable
          have reached : (source.system.next hashes lease
              (.claim worker locked)).store = store := by
            show (source.system.store.claimNext source.now lease worker locked).1 = _
            rw [ran]
          refine ⟨job.row, written.row, Store.row?_of_getElem? found, idle, ?_, rfl⟩
          rw [reached, same]
          exact Store.row?_setJob_self found

/-- What a worker knows when it begins. -/
theorem begin_knows {seed : Seed} {target : World} {record : JobRecord}
    (valid : source.Valid reviewer.settings.claimLease)
    (claimed : (source.system.store.claimNext source.now
      reviewer.settings.claimLease worker seed.locked).2 = some record)
    (reached : target =
      World.onSession worker (fun _ => { job := some record.id })
        { source with
          system :=
            source.system.next reviewer.hashes reviewer.settings.claimLease
              (.claim worker seed.locked) }) :
    Knows worker record.id (Knowledge.claimed record.state) target := by
  obtain ⟨row, changed, found, idle, written, state⟩ :=
    claimNext_row reviewer.hashes claimed
  have session : target.sessions worker = { job := some record.id } := by
    rw [reached]
    exact onSession_self _
  have known : target.row? record.id = some changed := by
    rw [reached]
    exact written
  have clock : target.now = source.now := by
    rw [reached]
    rfl
  have requests : target.inflight = source.inflight := by
    rw [reached]
    rfl
  constructor
  · exact True.intro
  · rw [session]
  · intro other foundOther _
    rw [known] at foundOther
    cases foundOther
    exact state
  · intro input absent
    cases absent
  · intro status absent
    cases absent
  · intro absent
    cases absent
  · intro absent
    cases absent
  · intro _ _ post member same
    rw [requests] at member
    by_contra late
    rw [clock] at late
    have ahead := Nat.lt_of_not_le late
    obtain ⟨held, foundHeld, holds⟩ := valid.holding post member ahead
    rw [same, found] at foundHeld
    cases foundHeld
    have live := holds.live ahead
    rw [Row.not_idle_of_live live] at idle
    cases idle
  · intro absent
    cases absent
  · intro _
    rw [session]
  · intro absent
    cases absent
  · intro absent
    cases absent
  · intro number absent
    cases absent

/-- Every program a worker is given keeps the discipline. -/
theorem begin_safe {seed : Seed} {target : World}
    {program : Program Call Answer Unit}
    (valid : source.Valid reviewer.settings.claimLease)
    (begun : source.begin reviewer worker seed = (target, program)) :
    ∃ id, Safe (discipline reviewer) worker id program (fun _ _ => True)
      target := by
  have idles : ∀ world : World,
      Safe (discipline reviewer) worker 0 (.done ()) (fun _ _ => True) world :=
    fun _ _ _ _ => True.intro
  simp only [begin] at begun
  split at begun
  · cases begun
    exact ⟨0, idles _⟩
  · rename_i record claimed
    split at begun
    · cases begun
      exact ⟨0, idles _⟩
    · obtain ⟨reached, rfl⟩ := Prod.mk.inj begun
      refine ⟨record.id, ?_⟩
      let site : Site := { reviewer, worker, id := record.id }
      have works : site.Triple (Knowledge.claimed record.state)
          (processClaimed reviewer record) (fun _ => {}) fun _ => {} :=
        Site.Triple.processClaimed rfl
      have runs : site.Runs (Knowledge.claimed record.state)
          (runClaimed reviewer record) fun _ => {} :=
        Site.Runs.bind works fun _ =>
          Site.Runs.done (Knowledge.implies_nothing _)
      have kept : target.Valid reviewer.settings.claimLease := by
        rw [← reached]
        exact (valid.claim reviewer.hashes worker seed.locked).onSession
          fun _ _ => Nat.zero_le _
      have safe := runs target kept (begin_knows valid claimed reached.symm)
      exact safe.weaken fun _ _ _ _ => True.intro

theorem Valid.initial {system : System} {lease : Time}
    (initial : system.Initial) :
    Valid lease { system } := by
  have empty : ∀ id, system.store.row? id = none := by
    intro id
    simp [Store.row?, initial.1]
  constructor
  · exact System.Consistent.initial initial
  · intro id row found
    rw [row?, empty] at found
    cases found
  · intro post member
    cases member
  · intro post member
    cases member
  · intro post member
    cases member
  · intro id
    exact Nat.zero_le _
  · rintro post (member | member) <;> cases member
  · intro id _ unresolved
    exact absurd unresolved (Nat.lt_irrefl 0)
  · intro id row _ found
    rw [row?, empty] at found
    cases found
  · intro id
    exact Nat.le_refl 0
  · intro worker id absent
    cases absent

end World

namespace Service

variable {reviewer : ReviewWorker}

theorem Initial.disciplined {service : Service} (initial : service.Initial) :
    Pool.Disciplined (World.discipline reviewer) service := by
  obtain ⟨threads, system, empty, shared⟩ := initial
  refine ⟨?_, ?_⟩
  · rw [shared]
    exact World.Valid.initial empty
  · intro worker
    refine ⟨0, ?_⟩
    rw [threads]
    exact fun _ _ _ => True.intro

/-- Every reachable service keeps the discipline. -/
theorem disciplined {service : Service}
    (reached : Reachable (step reviewer) Initial service) :
    Pool.Disciplined (World.discipline reviewer) service := by
  have : Nonempty JobId := ⟨0⟩
  refine Pool.disciplined_reachable (fun _ initial => Initial.disciplined initial)
    ?_ reached
  intro worker seed source target program valid begun
  exact World.begin_safe valid (Option.some.inj begun)

/-- The invariant of the world holds in every reachable service. -/
theorem valid {service : Service}
    (reached : Reachable (step reviewer) Initial service) :
    service.shared.Valid reviewer.settings.claimLease :=
  (disciplined reached).1

end Service

end PeReview
