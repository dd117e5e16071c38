import PeReview.Jobs.Leases
import PeReview.Jobs.Supersession
import PeReview.Service.World

/-!
# The invariant of the service

A POST that can still commit is held by its sender's lease, belongs to a job that
has no committed review, and carries the durable payload of its publication.
While the outcome of a POST is unknown, its job is in publication recovery with an
AMBIGUOUS publication.
-/

namespace PeReview

namespace World

def row? (id : JobId) (world : World) : Option Row :=
  world.system.store.row? id

def now (world : World) : Time :=
  world.system.now

/-- No POST of the job can commit any more. -/
def Quiet (id : JobId) (world : World) : Prop :=
  ∀ post ∈ world.inflight, post.job = id → post.deadline ≤ world.now

/-- Gerrit has committed no review of the job. -/
def Uncommitted (id : JobId) (world : World) : Prop :=
  ∀ post ∈ world.committed, post.job ≠ id

/-- The payload is the durable payload of the job's publication. -/
def Stored (id : JobId) (input : ReviewInput) (world : World) : Prop :=
  ∃ row, world.row? id = some row ∧ row.payload = some input

/-- The worker holds the publishing job up to a deadline. -/
def Held (worker : WorkerId) (deadline : Time) (id : JobId) (world : World) :
    Prop :=
  ∃ row, world.row? id = some row ∧ row.HeldBy worker deadline

/-- What holds of the row as long as the worker is live. -/
def WhileLive (worker : WorkerId) (id : JobId) (fact : Row → Prop)
    (world : World) : Prop :=
  ∀ row, world.row? id = some row → row.live worker world.now → fact row

theorem live_iff {worker : WorkerId} {id : JobId} {world : World} :
    world.live worker id = true ↔
      ∃ row, world.row? id = some row ∧ row.live worker world.now := by
  unfold live row? now
  cases world.system.store.row? id <;> simp

structure Valid (lease : Time) (world : World) : Prop where
  consistent : world.system.Consistent
  renewable : ∀ id row, world.row? id = some row →
    row.Renewable lease world.now
  /-- A POST that can commit is covered by its sender's lease. -/
  holding : ∀ post ∈ world.inflight, world.now < post.deadline →
    world.Held post.worker post.deadline post.job
  /-- It is the only one of its job. -/
  alone : ∀ post ∈ world.inflight, world.now < post.deadline →
    ∀ other ∈ world.inflight, other.job = post.job →
      world.now < other.deadline → other.number = post.number
  uncommitted : ∀ post ∈ world.inflight, world.now < post.deadline →
    world.Uncommitted post.job
  once : ∀ id, (world.committed.filter fun post => post.job = id).length ≤ 1
  stored : ∀ post, post ∈ world.inflight ∨ post ∈ world.committed →
    world.Stored post.job post.payload
  tracked : ∀ id, world.stale id = false →
    world.resolved id < world.dispatched id →
      ∃ row, world.row? id = some row ∧ row.Outstanding
  done : ∀ id row, world.overwritten id = false → world.row? id = some row →
    row.DonePosted
  counted : ∀ id, world.resolved id ≤ world.dispatched id
  lookedUp : ∀ worker id, (world.sessions worker).job = some id →
    (world.sessions worker).lookedUp ≤ world.dispatched id

/-- The requests to Gerrit and what is known about them stay as they are. -/
structure Framed (source target : World) : Prop where
  clock : source.now ≤ target.now
  inflight : target.inflight = source.inflight
  committed : target.committed = source.committed
  dispatched : target.dispatched = source.dispatched
  resolved : target.resolved = source.resolved
  stale : ∀ id, target.stale id = false → source.stale id = false
  overwritten : ∀ id, target.overwritten id = false →
    source.overwritten id = false

/-- How the rows of a world change: each row by a relation, and new rows are
fresh. -/
structure Rows (change : JobId → Row → Row → Prop) (source target : World) :
    Prop where
  old : ∀ id row, source.row? id = some row →
    ∃ changed, target.row? id = some changed ∧ change id row changed
  fresh : ∀ id row, source.row? id = none → target.row? id = some row → row.Fresh

namespace Rows

variable {change : JobId → Row → Row → Prop} {source target : World}

/-- Where a row of the target comes from. -/
theorem origin (rows : Rows change source target) {id : JobId} {changed : Row}
    (reached : target.row? id = some changed) :
    (∃ row, source.row? id = some row ∧ change id row changed) ∨
      changed.Fresh := by
  cases known : source.row? id with
  | none => exact .inr (rows.fresh id changed known reached)
  | some row =>
      obtain ⟨after, found, step⟩ := rows.old id row known
      rw [reached] at found
      cases found
      exact .inl ⟨row, rfl, step⟩

theorem next (rows : Rows change source target) {id : JobId} {row : Row}
    {fact : Row → Prop} (found : source.row? id = some row)
    (kept : ∀ changed, change id row changed → fact changed) :
    ∃ changed, target.row? id = some changed ∧ fact changed := by
  obtain ⟨changed, reached, step⟩ := rows.old id row found
  exact ⟨changed, reached, kept changed step⟩

end Rows

/-- A worker that does not hold its lease any more has been noted. -/
def Attentive (worker : WorkerId) (world : World) : Prop :=
  ∀ id, (world.sessions worker).job = some id → world.stale id = false →
    (world.sessions worker).released = true ∨ world.live worker id = true

section Note

variable {worker : WorkerId} {world : World}

theorem note_cases (worker : WorkerId) (world : World) :
    world.note worker = world ∨
      ∃ id, (world.sessions worker).job = some id ∧
        (world.sessions worker).released = false ∧
        world.live worker id = false ∧
        world.note worker =
          { world with stale := Function.update world.stale id true } := by
  unfold note
  cases claimed : (world.sessions worker).job with
  | none => exact .inl rfl
  | some id =>
      by_cases known :
          ((world.sessions worker).released || world.live worker id) = true
      · exact .inl (by simp [known])
      · right
        refine ⟨id, rfl, ?_, ?_, by simp [known]⟩
        · cases released : (world.sessions worker).released <;> simp_all
        · cases live : world.live worker id <;> simp_all

@[simp]
theorem note_row? (id : JobId) : (world.note worker).row? id = world.row? id := by
  rcases note_cases worker world with same | ⟨_, _, _, _, same⟩ <;> rw [same]
  rfl

@[simp]
theorem note_now : (world.note worker).now = world.now := by
  rcases note_cases worker world with same | ⟨_, _, _, _, same⟩ <;> rw [same]
  rfl

@[simp]
theorem note_system : (world.note worker).system = world.system := by
  rcases note_cases worker world with same | ⟨_, _, _, _, same⟩ <;> rw [same]

@[simp]
theorem note_sessions : (world.note worker).sessions = world.sessions := by
  rcases note_cases worker world with same | ⟨_, _, _, _, same⟩ <;> rw [same]

@[simp]
theorem note_inflight : (world.note worker).inflight = world.inflight := by
  rcases note_cases worker world with same | ⟨_, _, _, _, same⟩ <;> rw [same]

@[simp]
theorem note_committed : (world.note worker).committed = world.committed := by
  rcases note_cases worker world with same | ⟨_, _, _, _, same⟩ <;> rw [same]

@[simp]
theorem note_dispatched : (world.note worker).dispatched = world.dispatched := by
  rcases note_cases worker world with same | ⟨_, _, _, _, same⟩ <;> rw [same]

@[simp]
theorem note_resolved : (world.note worker).resolved = world.resolved := by
  rcases note_cases worker world with same | ⟨_, _, _, _, same⟩ <;> rw [same]

@[simp]
theorem note_overwritten : (world.note worker).overwritten = world.overwritten := by
  rcases note_cases worker world with same | ⟨_, _, _, _, same⟩ <;> rw [same]

theorem note_stale {id : JobId} (tidy : (world.note worker).stale id = false) :
    world.stale id = false := by
  rcases note_cases worker world with same | ⟨noted, _, _, _, same⟩
  · rwa [same] at tidy
  · rw [same] at tidy
    by_cases equal : id = noted
    · subst equal
      simp at tidy
    · simpa [equal] using tidy

theorem note_attentive : (world.note worker).Attentive worker := by
  intro id claimed tidy
  rw [note_sessions] at claimed ⊢
  rcases note_cases worker world with same | ⟨noted, known, _, _, same⟩
  · rw [same] at tidy ⊢
    by_contra neither
    push Not at neither
    have unreleased : (world.sessions worker).released = false := by
      simpa using neither.1
    have expired : world.live worker id = false := by simpa using neither.2
    have noticed : (world.note worker).stale id = true := by
      simp [note, claimed, unreleased, expired]
    rw [same, tidy] at noticed
    cases noticed
  · rw [known] at claimed
    cases claimed
    rw [same] at tidy
    simp at tidy

theorem note_framed : Framed world (world.note worker) where
  clock := by simp
  inflight := note_inflight
  committed := note_committed
  dispatched := note_dispatched
  resolved := note_resolved
  stale := fun _ => note_stale
  overwritten := by simp

end Note

/-- Every part of the invariant survives a step that leaves Gerrit alone, when the
rows change in a way that keeps them. -/
theorem Valid.advance {lease : Time} {source target : World}
    {change : JobId → Row → Row → Prop} (before : source.Valid lease)
    (framed : Framed source target) (rows : Rows change source target)
    (consistent : target.system.Consistent)
    (renewable : ∀ id row changed, change id row changed →
      row.Renewable lease source.now → changed.Renewable lease source.now)
    (holding : ∀ post ∈ source.inflight, source.now < post.deadline →
      ∀ row changed, source.row? post.job = some row →
        change post.job row changed →
          row.HeldBy post.worker post.deadline →
            changed.HeldBy post.worker post.deadline)
    (payload : ∀ id row changed input, change id row changed →
      row.payload = some input → changed.payload = some input)
    (tracked : ∀ id row changed, target.stale id = false →
      source.resolved id < source.dispatched id →
      source.row? id = some row → change id row changed → row.Outstanding →
        changed.Outstanding)
    (done : ∀ id row changed, target.overwritten id = false →
      source.row? id = some row → change id row changed → row.DonePosted →
        changed.DonePosted)
    (lookedUp : ∀ worker id, (target.sessions worker).job = some id →
      (target.sessions worker).lookedUp ≤ source.dispatched id) :
    target.Valid lease := by
  obtain ⟨clock, inflight, committed, dispatched, resolved, stale, overwritten⟩ :=
    framed
  have capable : ∀ post : Post, target.now < post.deadline →
      source.now < post.deadline :=
    fun post ahead => Nat.lt_of_le_of_lt clock ahead
  constructor
  · exact consistent
  · intro id changed reached
    rcases rows.origin reached with ⟨row, found, step⟩ | fresh
    · exact
        (renewable id row changed step (before.renewable id row found)).later
          clock
    · intro expires expiry
      rw [fresh.leaseExpiresAt] at expiry
      cases expiry
  · intro post member ahead
    rw [inflight] at member
    obtain ⟨row, found, held⟩ := before.holding post member (capable post ahead)
    exact rows.next found fun changed step =>
      holding post member (capable post ahead) row changed found step held
  · intro post member ahead other otherMember same otherAhead
    rw [inflight] at member otherMember
    exact before.alone post member (capable post ahead) other otherMember same
      (capable other otherAhead)
  · intro post member ahead other otherMember
    rw [inflight] at member
    rw [committed] at otherMember
    exact before.uncommitted post member (capable post ahead) other otherMember
  · intro id
    rw [committed]
    exact before.once id
  · intro post member
    rw [inflight, committed] at member
    obtain ⟨row, found, known⟩ := before.stored post member
    exact rows.next found fun changed step =>
      payload post.job row changed post.payload step known
  · intro id tidy open_
    rw [resolved, dispatched] at open_
    obtain ⟨row, found, outstanding⟩ := before.tracked id (stale id tidy) open_
    exact rows.next found fun changed step =>
      tracked id row changed tidy open_ found step outstanding
  · intro id changed clean reached
    rcases rows.origin reached with ⟨row, found, step⟩ | fresh
    · exact done id row changed clean found step
        (before.done id row (overwritten id clean) found)
    · intro _ present
      rw [fresh.publication] at present
      cases present
  · intro id
    rw [resolved, dispatched]
    exact before.counted id
  · intro worker id claimed
    rw [dispatched]
    exact lookedUp worker id claimed

end World

end PeReview
