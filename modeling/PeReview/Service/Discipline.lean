import PeReview.Service.Transactions

/-!
# The discipline of workers

What a worker owes the others before each of its calls, and what it may rely on
while they act.
-/

namespace PeReview

open PeReview.Process

namespace World

/-- While the worker is live, no POST of the job can commit. -/
def Silent (worker : WorkerId) (id : JobId) (world : World) : Prop :=
  world.live worker id = true → world.Quiet id

/-- While the worker is live and nobody went on without a lease, the outcome of
every POST of the job is known. -/
def Settled (worker : WorkerId) (id : JobId) (world : World) : Prop :=
  world.stale id = false → world.live worker id = true →
    world.resolved id = world.dispatched id

/-- What a worker owes before a transaction that acts on the row of its job. -/
def Permits (worker : WorkerId) (id : JobId) (world : World) : RowAction → Prop
  | .extend => True
  | .begin _ => True
  | .mark .ambiguous =>
      (world.sessions worker).released = false ∧
        world.WhileLive worker id fun row => row.status ≠ some .posted
  | .mark .failed =>
      (world.sessions worker).released = false ∧
        (world.WhileLive worker id fun row => row.status ≠ some .posted) ∧
        world.Settled worker id
  | .mark _ => False
  | .post _ =>
      (world.sessions worker).released = false ∧ world.Silent worker id ∧
        world.Settled worker id
  | .close _ => world.Silent worker id ∧ world.Settled worker id
  | .finish => world.Silent worker id
  | .move target release =>
      (world.WhileLive worker id fun row =>
        (RowAction.move target release).Orderly row) ∧ world.Silent worker id
  | .park resume =>
      (world.WhileLive worker id fun row => (RowAction.park resume).Orderly row) ∧
        world.Silent worker id
  | .save =>
      (world.WhileLive worker id fun row => RowAction.save.Orderly row) ∧
        world.Silent worker id

/-- The worker works on the job and has not given it back. -/
def Working (worker : WorkerId) (id : JobId) (world : World) : Prop :=
  (world.sessions worker).job = some id ∧
    (world.sessions worker).released = false

/-- What a worker owes before a call. -/
def Allowed (worker : WorkerId) : Call → World → Prop
  | .store call, world =>
      (world.sessions worker).job = some call.job ∧
        ∀ action ∈ call.action, world.Permits worker call.job action
  | .listMessages id _ _, world => world.Working worker id
  | .messages id, world => world.Working worker id
  | .postReview id payload, world =>
      world.Working worker id ∧ world.Stored id payload ∧
        (world.now < (world.sessions worker).granted →
          world.Held worker (world.sessions worker).granted id ∧
            world.Quiet id ∧ world.Uncommitted id) ∧
        (world.stale id = false → world.WhileLive worker id Row.Outstanding)
  | .postOutcome id number, world =>
      world.Working worker id ∧ number < world.dispatched id
  | _, _ => True

/-- What a worker may rely on while others act on the world. -/
structure Rely (worker : WorkerId) (id : JobId) (source target : World) : Prop
    where
  clock : source.now ≤ target.now
  session : target.sessions worker = source.sessions worker
  stale : target.stale id = false → source.stale id = false
  seen : ∀ changed, target.row? id = some changed →
    changed.live worker target.now →
      ∃ row, source.row? id = some row ∧ row.live worker source.now ∧
        changed.state = row.state ∧
        (changed.status = some .posted → row.status = some .posted) ∧
        (target.stale id = false → changed.publication = row.publication)
  stored : ∀ input, source.Stored id input → target.Stored id input
  inflight : target.live worker id = true → ∀ post ∈ target.inflight,
    post.job = id → target.now < post.deadline → post ∈ source.inflight
  committed : target.live worker id = true → source.Quiet id →
    source.Uncommitted id → target.Uncommitted id
  counters : target.stale id = false → target.live worker id = true →
    target.dispatched id = source.dispatched id ∧
      target.resolved id = source.resolved id
  dispatched : source.dispatched id ≤ target.dispatched id
  held : ∀ deadline, target.now < deadline → source.Held worker deadline id →
    target.Held worker deadline id

namespace Rely

variable {worker : WorkerId} {id : JobId} {source middle target : World}

theorem refl (worker : WorkerId) (id : JobId) (world : World) :
    Rely worker id world world where
  clock := Nat.le_refl _
  session := rfl
  stale := fun tidy => tidy
  seen := fun row found live =>
    ⟨row, found, live, rfl, fun posted => posted, fun _ => rfl⟩
  stored := fun _ stored => stored
  inflight := fun _ _ member _ _ => member
  committed := fun _ _ uncommitted => uncommitted
  counters := fun _ _ => ⟨rfl, rfl⟩
  dispatched := Nat.le_refl _
  held := fun _ _ held => held

/-- A worker that is live now was live before. -/
theorem live (rely : Rely worker id source target)
    (now : target.live worker id = true) :
    source.live worker id = true := by
  obtain ⟨changed, reached, live⟩ := live_iff.mp now
  obtain ⟨row, found, before, _⟩ := rely.seen changed reached live
  exact live_iff.mpr ⟨row, found, before⟩

/-- While the worker is live, nobody else can send a POST that commits. -/
theorem quiet (rely : Rely worker id source target)
    (live : target.live worker id = true) (quiet : source.Quiet id) :
    target.Quiet id := by
  intro post member same
  by_contra late
  have ahead := Nat.lt_of_not_le late
  have known := rely.inflight live post member same ahead
  exact late ((quiet post known same).trans rely.clock)

theorem trans (first : Rely worker id source middle)
    (second : Rely worker id middle target) :
    Rely worker id source target where
  clock := first.clock.trans second.clock
  session := second.session.trans first.session
  stale := fun tidy => first.stale (second.stale tidy)
  seen := by
    intro changed reached live
    obtain ⟨between, found, liveThen, state, posted, publication⟩ :=
      second.seen changed reached live
    obtain ⟨row, known, liveBefore, stateBefore, postedBefore,
      publicationBefore⟩ := first.seen between found liveThen
    exact ⟨row, known, liveBefore, state.trans stateBefore,
      fun now => postedBefore (posted now),
      fun tidy => (publication tidy).trans (publicationBefore (second.stale tidy))⟩
  stored := fun input stored => second.stored input (first.stored input stored)
  inflight := by
    intro live post member same ahead
    have between := second.inflight live post member same ahead
    exact first.inflight (second.live live) post between same
      (Nat.lt_of_le_of_lt second.clock ahead)
  committed := by
    intro live quiet uncommitted
    exact second.committed live (first.quiet (second.live live) quiet)
      (first.committed (second.live live) quiet uncommitted)
  counters := by
    intro tidy live
    obtain ⟨dispatchedThen, resolvedThen⟩ :=
      first.counters (second.stale tidy) (second.live live)
    obtain ⟨dispatchedNow, resolvedNow⟩ := second.counters tidy live
    exact ⟨dispatchedNow.trans dispatchedThen, resolvedNow.trans resolvedThen⟩
  dispatched := first.dispatched.trans second.dispatched
  held := fun deadline ahead held =>
    second.held deadline ahead
      (first.held deadline (Nat.lt_of_le_of_lt second.clock ahead) held)

/-- The rely of a step that leaves the requests to Gerrit alone. -/
theorem framed {change : JobId → Row → Row → Prop}
    (framed : Framed source target) (rows : Rows change source target)
    (session : target.sessions worker = source.sessions worker)
    (seen : ∀ row changed, source.row? id = some row → change id row changed →
      changed.live worker target.now →
        row.live worker source.now ∧ changed.state = row.state ∧
          (changed.status = some .posted → row.status = some .posted) ∧
          (target.stale id = false → changed.publication = row.publication))
    (payload : ∀ row changed input, change id row changed →
      row.payload = some input → changed.payload = some input)
    (held : ∀ row changed deadline, target.now < deadline →
      source.row? id = some row → change id row changed →
        row.HeldBy worker deadline → changed.HeldBy worker deadline) :
    Rely worker id source target where
  clock := framed.clock
  session := session
  stale := framed.stale id
  seen := by
    intro changed reached live
    rcases rows.origin reached with ⟨row, found, step⟩ | fresh
    · exact ⟨row, found, seen row changed found step live⟩
    · exact absurd live (Row.not_live_of_released fresh.leaseOwner)
  stored := by
    rintro input ⟨row, found, stored⟩
    exact rows.next found fun changed step =>
      payload row changed input step stored
  inflight := by
    intro _ post member _ _
    rwa [framed.inflight] at member
  committed := by
    intro _ _ uncommitted post member
    rw [framed.committed] at member
    exact uncommitted post member
  counters := fun _ _ => by rw [framed.dispatched, framed.resolved]; exact ⟨rfl, rfl⟩
  dispatched := by rw [framed.dispatched]
  held := by
    rintro deadline ahead ⟨row, found, holds⟩
    exact rows.next found fun changed step =>
      held row changed deadline ahead found step holds

end Rely

/-- The rows of a world whose database did not change. -/
theorem Rows.unchanged {source target : World}
    (same : target.system = source.system) :
    Rows (fun _ row changed => changed = row) source target where
  old := fun id row found => ⟨row, by rw [row?, same]; exact found, rfl⟩
  fresh := by
    intro id row absent reached
    rw [row?, same] at reached
    rw [row?, reached] at absent
    cases absent

/-- Noting a step disturbs nobody. -/
theorem note_rely (worker other : WorkerId) (id : JobId) (world : World) :
    Rely other id world (world.note worker) := by
  refine Rely.framed note_framed (Rows.unchanged note_system) (by simp) ?_ ?_ ?_
  · rintro row changed _ rfl live
    exact ⟨by simpa using live, rfl, fun posted => posted, fun _ => rfl⟩
  · rintro row changed input rfl stored
    exact stored
  · rintro row changed deadline _ _ rfl holds
    exact holds

theorem Valid.note {lease : Time} {worker : WorkerId} {world : World}
    (before : world.Valid lease) :
    (world.note worker).Valid lease := by
  refine before.advance note_framed (Rows.unchanged note_system)
    (by rw [note_system]; exact before.consistent) ?_ ?_ ?_ ?_ ?_ ?_
  · rintro id row changed rfl kept
    exact kept
  · rintro post _ _ row changed _ rfl held
    exact held
  · rintro id row changed input rfl stored
    exact stored
  · rintro id row changed _ _ _ rfl outstanding
    exact outstanding
  · rintro id row changed _ _ rfl done
    exact done
  · intro other id claimed
    rw [note_sessions] at claimed ⊢
    exact before.lookedUp other id claimed

/-- What is owed does not depend on the note. -/
theorem Allowed.note {worker : WorkerId} {request : Call} {world : World}
    (allowed : world.Allowed worker request) :
    (world.note worker).Allowed worker request := by
  have live : ∀ id, (world.note worker).live worker id = world.live worker id := by
    intro id
    rw [World.live, World.live, note_system]
  have quiet : ∀ id, (world.note worker).Quiet id = world.Quiet id := by
    intro id
    simp [Quiet]
  have whileLive : ∀ id fact, (world.note worker).WhileLive worker id fact =
      world.WhileLive worker id fact := by
    intro id fact
    simp [WhileLive]
  have settled : ∀ id, world.Settled worker id →
      (world.note worker).Settled worker id := by
    intro id settled tidy
    rw [live, note_resolved, note_dispatched]
    exact settled (note_stale tidy)
  have silent : ∀ id, (world.note worker).Silent worker id =
      world.Silent worker id := by
    intro id
    simp [Silent, live, quiet]
  have working : ∀ id, (world.note worker).Working worker id =
      world.Working worker id := by
    intro id
    simp [Working]
  cases request with
  | store call =>
      obtain ⟨claimed, permits⟩ := allowed
      refine ⟨by rw [note_sessions]; exact claimed, ?_⟩
      intro action acts
      have permitted := permits action acts
      cases action with
      | extend => exact True.intro
      | begin => exact True.intro
      | mark status =>
          cases status with
          | ambiguous =>
              simpa [Permits, whileLive] using permitted
          | failed =>
              obtain ⟨unreleased, unposted, done⟩ := permitted
              refine ⟨by rw [note_sessions]; exact unreleased, ?_,
                settled _ done⟩
              rw [whileLive]
              exact unposted
          | pending => exact permitted
          | posted => exact permitted
      | post defer =>
          obtain ⟨unreleased, quiet, done⟩ := permitted
          refine ⟨by rw [note_sessions]; exact unreleased, ?_, settled _ done⟩
          rw [silent]
          exact quiet
      | close target =>
          obtain ⟨quiet, done⟩ := permitted
          refine ⟨?_, settled _ done⟩
          rw [silent]
          exact quiet
      | finish => simpa [Permits, silent] using permitted
      | move target release => simpa [Permits, silent, whileLive] using permitted
      | park resume => simpa [Permits, silent, whileLive] using permitted
      | save => simpa [Permits, silent, whileLive] using permitted
  | listMessages id summary tag => simpa [Allowed, working] using allowed
  | messages id => simpa [Allowed, working] using allowed
  | postOutcome id number => simpa [Allowed, working] using allowed
  | postReview id payload =>
      obtain ⟨busy, stored, covered, outstanding⟩ := allowed
      refine ⟨by rw [working]; exact busy, by simpa [Stored] using stored, ?_, ?_⟩
      · simpa [Held, quiet, Uncommitted] using covered
      · intro tidy
        rw [whileLive]
        exact outstanding (note_stale tidy)
  | _ => exact True.intro

end World

end PeReview
