import PeReview.Jobs.Errors
import PeReview.Service.Steps

/-!
# What a worker knows

The assertions of the proofs about workers.  A `Knowledge` says what a worker
knows about its job between two of its calls; `Knows` is stable under everything
the others do.
-/

namespace PeReview

open PeReview.Process

structure Knowledge where
  fact : Prop := True
  /-- The state of the row, while the worker is live. -/
  states : JobState → Prop := fun _ => True
  /-- The durable payload of the publication. -/
  payload : Option ReviewInput := none
  /-- The status of the publication, while the worker is live. -/
  status : Option (Option PublicationStatus) := none
  /-- The publication is not POSTED, while the worker is live. -/
  unposted : Bool := false
  /-- The outcome of every POST is known, while the worker is live. -/
  settled : Bool := false
  /-- No POST can commit, while the worker is live. -/
  silent : Bool := false
  /-- Gerrit has committed no review, while the worker is live. -/
  uncommitted : Bool := false
  /-- The worker has not given its lease back. -/
  working : Bool := false
  /-- The last publish guard granted a lease on a publishing job. -/
  covered : Bool := false
  /-- A lookup is on its way. -/
  lookup : Bool := false
  /-- A POST is on its way. -/
  awaiting : Option Nat := none

namespace World

structure Knows (worker : WorkerId) (id : JobId) (known : Knowledge)
    (world : World) : Prop where
  fact : known.fact
  claimed : (world.sessions worker).job = some id
  states : world.WhileLive worker id fun row => known.states row.state
  payload : ∀ input ∈ known.payload, world.Stored id input
  status : ∀ status ∈ known.status, world.stale id = false →
    world.WhileLive worker id fun row => row.status = status
  unposted : known.unposted = true →
    world.WhileLive worker id fun row => row.status ≠ some .posted
  settled : known.settled = true → world.Settled worker id
  silent : known.silent = true → world.Silent worker id
  uncommitted : known.uncommitted = true → world.live worker id = true →
    world.Quiet id ∧ world.Uncommitted id
  working : known.working = true → (world.sessions worker).released = false
  covered : known.covered = true →
    world.now < (world.sessions worker).granted →
      world.Held worker (world.sessions worker).granted id
  lookup : known.lookup = true → world.live worker id = true →
    world.Quiet id ∧
      ((world.sessions worker).seen = false → world.Uncommitted id) ∧
      (world.stale id = false →
        world.dispatched id = (world.sessions worker).lookedUp)
  awaiting : ∀ number ∈ known.awaiting, number < world.dispatched id ∧
    (world.live worker id = true →
      (∀ post ∈ world.inflight, post.job = id → world.now < post.deadline →
        post.number = number) ∧
      (world.stale id = false → world.dispatched id = number + 1))

variable {worker : WorkerId} {id : JobId} {known weaker : Knowledge}
  {source target world : World}

/-- What others do leaves the knowledge of a worker true. -/
theorem Knows.rely (knows : Knows worker id known source)
    (rely : Rely worker id source target) :
    Knows worker id known target where
  fact := knows.fact
  claimed := by rw [rely.session]; exact knows.claimed
  states := by
    intro changed reached live
    obtain ⟨row, found, alive, state, _⟩ := rely.seen changed reached live
    rw [state]
    exact knows.states row found alive
  payload := fun input stored => rely.stored input (knows.payload input stored)
  status := by
    intro status holds tidy changed reached live
    obtain ⟨row, found, alive, _, _, publication⟩ :=
      rely.seen changed reached live
    rw [Row.status, publication tidy]
    exact knows.status status holds (rely.stale tidy) row found alive
  unposted := by
    intro unposted changed reached live posted
    obtain ⟨row, found, alive, _, before, _⟩ := rely.seen changed reached live
    exact knows.unposted unposted row found alive (before posted)
  settled := by
    intro settled tidy live
    obtain ⟨dispatched, resolved⟩ := rely.counters tidy live
    rw [dispatched, resolved]
    exact knows.settled settled (rely.stale tidy) (rely.live live)
  silent := fun silent live =>
    rely.quiet live (knows.silent silent (rely.live live))
  uncommitted := by
    intro uncommitted live
    obtain ⟨quiet, none⟩ := knows.uncommitted uncommitted (rely.live live)
    exact ⟨rely.quiet live quiet, rely.committed live quiet none⟩
  working := fun working => by rw [rely.session]; exact knows.working working
  covered := by
    intro covered ahead
    rw [rely.session] at ahead ⊢
    exact rely.held _ ahead
      (knows.covered covered (Nat.lt_of_le_of_lt rely.clock ahead))
  lookup := by
    intro lookup live
    obtain ⟨quiet, none, dispatched⟩ := knows.lookup lookup (rely.live live)
    refine ⟨rely.quiet live quiet, ?_, ?_⟩
    · intro seen
      rw [rely.session] at seen
      exact rely.committed live quiet (none seen)
    · intro tidy
      rw [rely.session, (rely.counters tidy live).1]
      exact dispatched (rely.stale tidy)
  awaiting := by
    intro number holds
    obtain ⟨sent, while_⟩ := knows.awaiting number holds
    refine ⟨Nat.lt_of_lt_of_le sent rely.dispatched, ?_⟩
    intro live
    obtain ⟨only, dispatched⟩ := while_ (rely.live live)
    constructor
    · intro post member same ahead
      exact only post (rely.inflight live post member same ahead) same
        (Nat.lt_of_le_of_lt rely.clock ahead)
    · intro tidy
      rw [(rely.counters tidy live).1]
      exact dispatched (rely.stale tidy)

end World

namespace Knowledge

/-- The second knowledge says no more than the first, whose fact holds. -/
structure Covers (known weaker : Knowledge) : Prop where
  fact : weaker.fact
  states : ∀ state, known.states state → weaker.states state
  payload : weaker.payload = none ∨ weaker.payload = known.payload
  status : weaker.status = none ∨ weaker.status = known.status
  unposted : weaker.unposted = true → known.unposted = true
  settled : weaker.settled = true → known.settled = true
  silent : weaker.silent = true → known.silent = true
  uncommitted : weaker.uncommitted = true → known.uncommitted = true
  working : weaker.working = true → known.working = true
  covered : weaker.covered = true → known.covered = true
  lookup : weaker.lookup = true → known.lookup = true
  awaiting : weaker.awaiting = none ∨ weaker.awaiting = known.awaiting

def Implies (known weaker : Knowledge) : Prop :=
  known.fact → known.Covers weaker

/-- Knowledge with one more fact. -/
def given (known : Knowledge) (fact : Prop) : Knowledge :=
  { known with fact := known.fact ∧ fact }

/-- Knowledge with one more condition on the state of the row. -/
def within (known : Knowledge) (states : JobState → Prop) : Knowledge :=
  { known with states := fun state => known.states state ∧ states state }

/-- What is still known once the lease may have been given back. -/
def released (known : Knowledge) : Knowledge :=
  { known with working := false, covered := false }

theorem Implies.refl (known : Knowledge) : known.Implies known := by
  intro fact
  constructor <;> simp [fact]

theorem Implies.trans {known middle weaker : Knowledge}
    (first : known.Implies middle) (second : middle.Implies weaker) :
    known.Implies weaker := by
  intro fact
  have left := first fact
  have right := second left.fact
  constructor
  · exact right.fact
  · exact fun state holds => right.states state (left.states state holds)
  · rcases right.payload with absent | same
    · exact .inl absent
    · rw [same]
      exact left.payload
  · rcases right.status with absent | same
    · exact .inl absent
    · rw [same]
      exact left.status
  · exact fun holds => left.unposted (right.unposted holds)
  · exact fun holds => left.settled (right.settled holds)
  · exact fun holds => left.silent (right.silent holds)
  · exact fun holds => left.uncommitted (right.uncommitted holds)
  · exact fun holds => left.working (right.working holds)
  · exact fun holds => left.covered (right.covered holds)
  · exact fun holds => left.lookup (right.lookup holds)
  · rcases right.awaiting with absent | same
    · exact .inl absent
    · rw [same]
      exact left.awaiting

/-- Anything implies knowing nothing. -/
theorem implies_nothing (known : Knowledge) : known.Implies {} := by
  intro _
  constructor <;> simp

theorem implies_released (known : Knowledge) : known.Implies known.released := by
  intro fact
  constructor <;> simp [released, fact]

theorem within_implies {states : JobState → Prop} (known : Knowledge) :
    (known.within states).Implies known := by
  intro fact
  constructor <;> simp_all [within]

theorem implies_given {fact : Prop} (known : Knowledge) (holds : fact) :
    known.Implies (known.given fact) := by
  intro given
  constructor <;> simp [Knowledge.given, given, holds]

theorem Implies.released {known weaker : Knowledge}
    (implies : known.Implies weaker) :
    known.released.Implies weaker.released := by
  intro fact
  have covers := implies fact
  exact
    { covers with
      working := fun absent => by cases absent
      covered := fun absent => by cases absent }

theorem given_implies {fact : Prop} {known weaker : Knowledge}
    (implies : fact → known.Implies weaker) :
    (known.given fact).Implies weaker := by
  rintro ⟨holds, given⟩
  have covers := implies given holds
  exact
    { fact := covers.fact
      states := covers.states
      payload := covers.payload
      status := covers.status
      unposted := covers.unposted
      settled := covers.settled
      silent := covers.silent
      uncommitted := covers.uncommitted
      working := covers.working
      covered := covers.covered
      lookup := covers.lookup
      awaiting := covers.awaiting }

end Knowledge

namespace World

variable {worker : WorkerId} {id : JobId} {known weaker : Knowledge}
  {source target world : World}

theorem Knows.weaken (knows : Knows worker id known world)
    (implies : known.Implies weaker) :
    Knows worker id weaker world := by
  have covers := implies knows.fact
  constructor
  · exact covers.fact
  · exact knows.claimed
  · exact fun row found live => covers.states _ (knows.states row found live)
  · intro input stored
    rcases covers.payload with absent | same
    · rw [absent] at stored
      cases stored
    · rw [same] at stored
      exact knows.payload input stored
  · intro status holds
    rcases covers.status with absent | same
    · rw [absent] at holds
      cases holds
    · rw [same] at holds
      exact knows.status status holds
  · exact fun holds => knows.unposted (covers.unposted holds)
  · exact fun holds => knows.settled (covers.settled holds)
  · exact fun holds => knows.silent (covers.silent holds)
  · exact fun holds => knows.uncommitted (covers.uncommitted holds)
  · exact fun holds => knows.working (covers.working holds)
  · exact fun holds => knows.covered (covers.covered holds)
  · exact fun holds => knows.lookup (covers.lookup holds)
  · intro number holds
    rcases covers.awaiting with absent | same
    · rw [absent] at holds
      cases holds
    · rw [same] at holds
      exact knows.awaiting number holds

end World

end PeReview
