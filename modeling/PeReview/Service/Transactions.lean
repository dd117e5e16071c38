import PeReview.Service.Validity

/-!
# Transactions of workers in the world

What a call on the job store changes besides the database: the record of its
worker, and the history of overwritten publications.
-/

namespace PeReview

namespace World

structure Transacted (hashes : Hashes) (lease : Time) (worker : WorkerId)
    (call : StoreCall) (source target : World) : Prop where
  system : target.system = source.system.next hashes lease (.work worker call)
  inflight : target.inflight = source.inflight
  committed : target.committed = source.committed
  dispatched : target.dispatched = source.dispatched
  resolved : target.resolved = source.resolved
  stale : target.stale = source.stale
  overwritten : ∀ id, target.overwritten id = false →
    source.overwritten id = false ∧
      (call.job = id → call.downgrades → source.posted id →
        source.live worker id)
  others : ∀ other, other ≠ worker → target.sessions other = source.sessions other
  job : (target.sessions worker).job = (source.sessions worker).job
  seen : (target.sessions worker).seen = (source.sessions worker).seen
  lookedUp : (target.sessions worker).lookedUp = (source.sessions worker).lookedUp
  released : (target.sessions worker).released = true →
    (source.sessions worker).released = true ∨
      (source.owns worker call.job = true ∧ target.owns worker call.job = false)

variable {hashes : Hashes} {lease : Time} {worker : WorkerId} {call : StoreCall}
  {source target : World}

@[simp]
theorem onSession_self (change : Session → Session) :
    (source.onSession worker change).sessions worker =
      change (source.sessions worker) := by
  simp [onSession]

theorem onSession_of_ne {other : WorkerId} (change : Session → Session)
    (different : other ≠ worker) :
    (source.onSession worker change).sessions other = source.sessions other := by
  simp [onSession, different]

theorem transact_transacted (hashes : Hashes) (lease : Time) (worker : WorkerId)
    (call : StoreCall) (source : World) :
    Transacted hashes lease worker call source
        (source.transact hashes lease worker call) ∧
      ((source.transact hashes lease worker call).sessions worker).granted =
        (source.sessions worker).granted := by
  -- The history of overwritten publications, and then the record of the worker.
  obtain ⟨marked, defines, system, fields, overwritten⟩ :
      ∃ marked : World,
        source.transact hashes lease worker call =
          (if source.owns worker call.job && !marked.owns worker call.job then
            marked.onSession worker fun session => { session with released := true }
          else marked) ∧
        marked.system = source.system.next hashes lease (.work worker call) ∧
        (marked.inflight = source.inflight ∧
          marked.committed = source.committed ∧
          marked.dispatched = source.dispatched ∧
          marked.resolved = source.resolved ∧ marked.stale = source.stale ∧
          marked.sessions = source.sessions) ∧
        ∀ id, marked.overwritten id = false →
          source.overwritten id = false ∧
            (call.job = id → call.downgrades → source.posted id →
              source.live worker id) := by
    refine ⟨_, rfl, ?_, ?_, ?_⟩
    · split <;> rfl
    · split <;> exact ⟨rfl, rfl, rfl, rfl, rfl, rfl⟩
    · intro id clean
      split at clean
      · rename_i overwrites
        simp only [Bool.and_eq_true, Bool.not_eq_true'] at overwrites
        by_cases same : id = call.job
        · subst same
          simp at clean
        · refine ⟨by simpa [same] using clean, ?_⟩
          intro equal
          exact absurd equal.symm same
      · rename_i keeps
        refine ⟨clean, ?_⟩
        rintro rfl downgrades posted
        simpa [downgrades, posted] using keeps
  obtain ⟨inflight, committed, dispatched, resolved, stale, sessions⟩ := fields
  rw [defines]
  split
  · rename_i released
    simp only [Bool.and_eq_true, Bool.not_eq_true'] at released
    refine ⟨⟨system, inflight, committed, dispatched, resolved, stale,
      overwritten, ?_, ?_, ?_, ?_, ?_⟩, ?_⟩
    · intro other different
      rw [onSession_of_ne _ different, sessions]
    · rw [onSession_self, sessions]
    · rw [onSession_self, sessions]
    · rw [onSession_self, sessions]
    · intro _
      exact .inr released
    · rw [onSession_self, sessions]
  · refine ⟨⟨system, inflight, committed, dispatched, resolved, stale,
      overwritten, ?_, ?_, ?_, ?_, ?_⟩, ?_⟩
    · intro other _
      rw [sessions]
    · rw [sessions]
    · rw [sessions]
    · rw [sessions]
    · intro released
      rw [sessions] at released
      exact .inl released
    · rw [sessions]

/-- A publish guard changes nothing but the deadline of the worker. -/
theorem Transacted.grant (ran : Transacted hashes lease worker call source target) :
    Transacted hashes lease worker call source (target.grant lease worker) where
  system := ran.system
  inflight := ran.inflight
  committed := ran.committed
  dispatched := ran.dispatched
  resolved := ran.resolved
  stale := ran.stale
  overwritten := ran.overwritten
  others := by
    intro other different
    exact (onSession_of_ne _ different).trans (ran.others other different)
  job := by
    rw [World.grant, onSession_self]
    exact ran.job
  seen := by
    rw [World.grant, onSession_self]
    exact ran.seen
  lookedUp := by
    rw [World.grant, onSession_self]
    exact ran.lookedUp
  released := by
    intro released
    rw [World.grant, onSession_self] at released
    exact ran.released released

/-- What a call on the job store can do. -/
theorem act_store {choice : Choice} {answer : Except PyError call.Result}
    (acted : act hashes lease worker (.store call) choice source =
      some (target, answer)) :
    (target = source ∧ answer = .error .database) ∨
      (Transacted hashes lease worker call source target ∧
        (target.sessions worker).granted = (source.sessions worker).granted ∧
        answer = .error .database) ∨
      (Transacted hashes lease worker call source target ∧
        answer =
          (call.run hashes source.now lease worker source.system.store).map
            Prod.snd ∧
        (target.sessions worker).granted =
          if call.grants
              (call.run hashes source.now lease worker source.system.store) then
            source.now + lease
          else (source.sessions worker).granted) := by
  obtain ⟨ran, granted⟩ := transact_transacted hashes lease worker call source
  have clock : (source.transact hashes lease worker call).system.now =
      source.system.now := by
    rw [ran.system]
    simp only [System.next, System.commit]
    split <;> rfl
  simp only [act] at acted
  split at acted
  · cases acted
    exact .inl ⟨rfl, rfl⟩
  · cases acted
    exact .inr (.inl ⟨ran, granted, rfl⟩)
  · right; right
    obtain ⟨reached, answered⟩ := Prod.mk.inj (Option.some.inj acted)
    subst reached
    refine ⟨?_, answered.symm, ?_⟩
    · split
      · exact ran.grant
      · exact ran
    · split
      · rename_i grants
        rw [World.grant, onSession_self, clock]
        exact (if_pos grants).symm
      · rename_i refuses
        exact granted.trans (if_neg refuses).symm

namespace Transacted

variable (ran : Transacted hashes lease worker call source target)

include ran

theorem now_eq : target.now = source.now := by
  rw [World.now, ran.system]
  simp only [System.next, System.commit]
  split <;> rfl

theorem framed : Framed source target where
  clock := ran.now_eq.ge
  inflight := ran.inflight
  committed := ran.committed
  dispatched := ran.dispatched
  resolved := ran.resolved
  stale := fun id tidy => by rwa [ran.stale] at tidy
  overwritten := fun id clean => (ran.overwritten id clean).1

/-- Each row changes by at most the action of the call. -/
theorem rows :
    Rows
      (fun id row changed => row.Worked lease source.now id worker call changed)
      source target where
  old := by
    intro id row found
    rw [row?, ran.system]
    exact System.work_row hashes lease found
  fresh := by
    intro id row absent reached
    rw [row?, ran.system] at reached
    exact System.fresh_row hashes lease absent reached

theorem row {id : JobId} {row : Row} (found : source.row? id = some row) :
    ∃ changed, target.row? id = some changed ∧
      row.Worked lease source.now id worker call changed :=
  ran.rows.old id row found

end Transacted

end World

end PeReview
