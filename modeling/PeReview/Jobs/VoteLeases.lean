import PeReview.Jobs.Audit
import PeReview.Jobs.TerminalStates

/-!
# Votes under leases

Only the holder of a live lease writes the vote of a job, and whoever is live after a step that
was not its own claim was live before it.  So what the holder of a lease has read of the vote
stays true as long as it is live and does not write the vote itself.
-/

namespace PeReview

open PeReview.Data

namespace Row

variable {row changed : Row} {lease now later : Time} {id : JobId} {worker other : WorkerId}
  {call : StoreCall}

/-- A transaction makes nobody live, not even its own worker. -/
theorem Worked.live_before (worked : row.Worked lease now id other call changed)
    (ordered : now ≤ later) (live : changed.live worker later) : row.live worker now := by
  by_cases same : worker = other
  · subst same
    cases worked with
    | same => exact live_of_le live ordered
    | acted action acts about guarded =>
        have released : (action.apply now lease row).leaseOwner = none → False :=
          fun free => not_live_of_released free live
        cases action with
        | extend => exact guarded.1
        | move target release => exact guarded.1
        | park resume => exact guarded.1
        | close target => exact guarded.1
        | save => exact guarded.1
        | begin payload => exact guarded.1
        | finish => exact guarded.1
        | mark status =>
            have before : row.live worker later := live
            exact live_of_le before ordered
        | post defer =>
            obtain ⟨_, observed⟩ := guarded
            cases defer with
            | false => exact absurd rfl released
            | true =>
                rcases observed with ⟨_, _, holder⟩ | ⟨_, impossible⟩
                · exact holder rfl
                · cases impossible
  · exact (worked.seen same ordered live).1

/-- Nor does anything that happens without a worker. -/
theorem Disturbed.live_before (disturbed : row.Disturbed now changed)
    (settled : row.Settled now) (ordered : now ≤ later) (live : changed.live worker later) :
    row.live worker now := by
  have released : changed.leaseOwner = none → False :=
    fun free => not_live_of_released free live
  cases disturbed with
  | enqueued _ step =>
      cases step with
      | keep => exact live_of_le live ordered
      | supersede => exact absurd rfl released
      | revive skipped =>
          have closed : row.state.isTerminal := by
            rw [skipped]
            rfl
          have before : row.live worker later := live
          exact absurd before (not_live_of_idle (settled closed) ordered)
      | reviveOlder => exact absurd rfl released
  | requeued failed => exact absurd rfl released
  | skipped _ step =>
      cases step with
      | keep => exact live_of_le live ordered
      | skip => exact absurd rfl released

end Row

namespace System

variable {hashes : Hashes} {lease : Time} {source : System} {label : SystemLabel} {id : JobId}
  {worker : WorkerId}

/-- The worker holds an unexpired lease on the job. -/
def Live (worker : WorkerId) (id : JobId) (system : System) : Prop :=
  ∃ row, system.store.row? id = some row ∧ row.live worker system.now = true

/-- A lease has one holder. -/
theorem Live.unique {other : WorkerId} (first : source.Live worker id)
    (second : source.Live other id) : worker = other := by
  obtain ⟨row, found, live⟩ := first
  obtain ⟨again, foundAgain, alsoLive⟩ := second
  rw [found] at foundAgain
  cases foundAgain
  exact Row.eq_of_live live alsoLive

/-- Nobody becomes live but by a claim of its own. -/
theorem Live.before (calm : source.Calm) (foreign : ∀ locked, label ≠ .claim worker locked)
    (live : (source.next hashes lease label).Live worker id) : source.Live worker id := by
  obtain ⟨changed, reached, alive⟩ := live
  have forward : source.now ≤ (source.next hashes lease label).now := now_le_next label
  cases known : source.store.row? id with
  | none =>
      have fresh := fresh_row hashes lease known reached
      obtain ⟨_, expires, expiry, _⟩ := Row.live_iff.mp alive
      rw [fresh.leaseExpiresAt] at expiry
      cases expiry
  | some row =>
      obtain ⟨other, found, effect⟩ := next_row hashes lease label known
      rw [reached] at found
      cases found
      refine ⟨row, known, ?_⟩
      cases effect with
      | worked other call worked => exact worked.live_before forward alive
      | offered other locked offered =>
          have different : worker ≠ other := by
            intro same
            exact foreign locked (by rw [same])
          exact (offered.seen different forward alive).1
      | disturbed environment disturbed =>
          exact disturbed.live_before (calm.settled id row known) forward alive

end System

/-! ## The vote of a job -/

/-- The recorded dispatches of the vote of a job. -/
def Store.attemptsOf (store : Store) (id : JobId) : Nat :=
  match store.voteOf id with
  | none => 0
  | some vote => vote.attempts

/-- What a transaction of the holder of the lease may make of the vote of its job. -/
inductive StoreCall.Votes : StoreCall → Option ReviewVote → Option ReviewVote → Prop
  | kept (call : StoreCall) (vote : Option ReviewVote) : Votes call vote vote
  | decided (call : StoreCall) (row : ReviewVote) (untried : row.attempts = 0) :
      Votes call none (some row)
  | written (call : StoreCall) (before after : ReviewVote)
      (payload : after.requestPayload = before.requestPayload)
      (attempts : after.attempts = before.attempts) :
      Votes call (some before) (some after)
  | dispatched (id : JobId) (accountId : Int) (before after : ReviewVote)
      (payload : after.requestPayload = before.requestPayload)
      (attempts : after.attempts = before.attempts + 1) :
      Votes (.dispatchVote id accountId) (some before) (some after)

section Transactions

variable {store target : Store} {id : JobId} {now lease : Time} {worker : WorkerId}
  {hashes : Hashes} {job written : Job}

theorem Store.voteOf_eq_vote (found : store.jobs[id]? = some job) :
    store.voteOf id = job.vote := by
  unfold voteOf
  rw [found]
  rfl

theorem Store.voteOf_setJob (found : store.jobs[id]? = some job) :
    (store.setJob id written).voteOf id = written.vote := by
  have inside := (List.getElem?_eq_some_iff.mp found).1
  apply voteOf_eq_vote
  unfold setJob
  exact List.getElem?_set_self inside

theorem Store.voteOf_eq_histories :
    store.voteOf id = (store.histories[id]?).bind History.vote := by
  unfold Store.voteOf Store.histories
  rw [List.getElem?_map]
  cases store.jobs[id]? <;> rfl

/-- A transaction on a vote that went through: its worker holds the lease of a job that is
PUBLISHING. -/
theorem Store.voteGuarded_eq_ok {Value : Type} {value : Value}
    {rest : Job → Except PyError (Job × Value)}
    (committed : (store.onJob id fun job => do
        job.voteGuard id worker now
        rest job) = .ok (target, value)) :
    ∃ job written, store.jobs[id]? = some job ∧ job.live worker now = true ∧
      job.state = .publishing ∧ rest job = .ok (written, value) ∧
      store.voteOf id = job.vote ∧ target.voteOf id = written.vote := by
  obtain ⟨job, written, found, ran, rfl⟩ := onJob_eq_ok.mp committed
  obtain ⟨_, guarded, returned⟩ := Except.bind_eq_ok.mp ran
  obtain ⟨live, publishing⟩ := Job.voteGuard_eq_ok.mp guarded
  exact ⟨job, written, found, live, publishing, returned, voteOf_eq_vote found,
    voteOf_setJob found⟩

/-- A dispatch that was recorded: the vote was open, of no other account, and has one attempt
more. -/
theorem Store.dispatchVote_eq_ok {accountId : Int} {vote : ReviewVote}
    (ran : store.dispatchVote now id worker accountId = .ok (target, vote)) :
    ∃ job before, store.jobs[id]? = some job ∧ job.live worker now = true ∧
      job.state = .publishing ∧ store.voteOf id = some before ∧
      before.status.isTerminal = false ∧
      (before.accountId = none ∨ before.accountId = some accountId) ∧
      vote.requestPayload = before.requestPayload ∧ vote.attempts = before.attempts + 1 ∧
      target.voteOf id = some vote := by
  obtain ⟨job, written, found, live, publishing, returned, known, reached⟩ :=
    voteGuarded_eq_ok ran
  cases present : job.vote with
  | none => simp [present] at returned
  | some before =>
      simp only [present, Except.bind_eq_ok, Except.require_eq_ok] at returned
      obtain ⟨_, opened, _, account, finished⟩ := returned
      cases finished
      rw [Bool.not_eq_true'] at opened
      have same : before.accountId = none ∨ before.accountId = some accountId := by
        simpa using account
      exact ⟨job, before, found, live, publishing, known.trans present, opened, same, rfl, rfl,
        reached⟩

theorem Store.attempts_finishedVote {status : VoteStatus} {response : Option GerritResponse}
    {error : Option String} {accountId : Option Int} {row after : ReviewVote}
    (finished : finishedVote now status response error accountId row = .ok after) :
    after.attempts = row.attempts := by
  unfold finishedVote at finished
  split at finished
  · cases finished
    rfl
  · obtain ⟨_, _, rest⟩ := Except.bind_eq_ok.mp finished
    cases rest
    rfl

/-- Every transaction on a vote is made by the live worker of its job. -/
theorem StoreCall.run_votes {call : StoreCall} {value : call.Result}
    (writes : call.writesVote = true)
    (ran : call.run hashes now lease worker store = .ok (target, value)) :
    (∃ job, store.jobs[call.job]? = some job ∧ job.live worker now = true) ∧
      call.Votes (store.voteOf call.job) (target.voteOf call.job) := by
  cases call with
  | ensureVote id decision payload =>
      obtain ⟨job, written, found, live, _, returned, known, reached⟩ :=
        Store.voteGuarded_eq_ok ran
      refine ⟨⟨job, found, live⟩, ?_⟩
      change Votes _ (store.voteOf id) (target.voteOf id)
      rw [known, reached]
      cases present : job.vote with
      | some row =>
          simp only [present] at returned
          cases returned
          rw [present]
          exact .kept _ _
      | none =>
          simp only [present] at returned
          cases returned
          exact .decided _ _ rfl
  | dispatchVote id accountId =>
      obtain ⟨job, before, found, live, _, known, _, _, payload, attempts, reached⟩ :=
        Store.dispatchVote_eq_ok ran
      refine ⟨⟨job, found, live⟩, ?_⟩
      change Votes _ (store.voteOf id) (target.voteOf id)
      rw [known, reached]
      exact .dispatched id accountId before _ payload attempts
  | retryVote id error =>
      obtain ⟨job, written, found, live, _, returned, known, reached⟩ :=
        Store.voteGuarded_eq_ok ran
      refine ⟨⟨job, found, live⟩, ?_⟩
      change Votes _ (store.voteOf id) (target.voteOf id)
      rw [known, reached]
      cases present : job.vote with
      | none => simp [present] at returned
      | some before =>
          simp only [present] at returned
          cases returned
          exact .written _ before _ rfl rfl
  | finishVote id status response error accountId =>
      obtain ⟨_, _, committed⟩ := Except.bind_eq_ok.mp ran
      obtain ⟨job, written, found, live, _, returned, known, reached⟩ :=
        Store.voteGuarded_eq_ok committed
      refine ⟨⟨job, found, live⟩, ?_⟩
      change Votes _ (store.voteOf id) (target.voteOf id)
      rw [known, reached]
      obtain ⟨_, _, rest⟩ := Except.bind_eq_ok.mp returned
      cases present : job.vote with
      | none => simp [present] at rest
      | some before =>
          simp only [present] at rest
          obtain ⟨changed, finished, last⟩ := Except.bind_eq_ok.mp rest
          cases last
          have continues := continues_finishedVote finished
          exact .written _ before changed continues.requestPayload
            (Store.attempts_finishedVote finished)
  | _ => cases writes

theorem Records.vote_eq {call : StoreCall} {history after : History}
    (quiet : call.writesVote = false) (records : Records call store id history after) :
    after.vote = history.vote := by
  cases records with
  | decide _ may => cases quiet.symm.trans may
  | vote _ _ may => cases quiet.symm.trans may
  | _ => rfl

end Transactions

namespace System

variable {hashes : Hashes} {lease : Time} {source : System} {label : SystemLabel} {id : JobId}

/-- A step leaves the vote of a job alone, or is a transaction of its live worker on it. -/
theorem next_voteOf (hashes : Hashes) (lease : Time) (source : System) (label : SystemLabel)
    (id : JobId) :
    (source.next hashes lease label).store.voteOf id = source.store.voteOf id ∨
      ∃ worker call, label = .work worker call ∧ call.job = id ∧ source.Live worker id ∧
        call.Votes (source.store.voteOf id)
          ((source.next hashes lease label).store.voteOf id) := by
  have recording := next_recording hashes lease source label
  by_cases vote : ∃ worker call, label = .work worker call ∧ call.job = id ∧
      call.writesVote = true
  · obtain ⟨worker, call, rfl, about, writes⟩ := vote
    rcases commit_store source (call.run hashes source.now lease worker source.store) with
      same | ⟨target, value, ran, same⟩
    · left
      rw [next, same]
    · right
      obtain ⟨⟨job, found, live⟩, votes⟩ := StoreCall.run_votes writes ran
      subst about
      refine ⟨worker, call, rfl, rfl, ⟨job.row, Store.row?_of_getElem? found, live⟩, ?_⟩
      rw [next, same]
      exact votes
  · left
    rw [Store.voteOf_eq_histories, Store.voteOf_eq_histories]
    generalize (source.next hashes lease label).store.histories = histories at recording
    have written : ∀ {other : JobId} {history after : History},
        source.store.histories[other]? = some history →
          (other = id → after.vote = history.vote) →
            ((source.store.histories.set other after)[id]?).bind History.vote =
              (source.store.histories[id]?).bind History.vote := by
      intro other history after present kept
      by_cases same : other = id
      · subst same
        have inside := (List.getElem?_eq_some_iff.mp present).1
        rw [List.getElem?_set_self inside, present]
        exact kept rfl
      · rw [List.getElem?_set_ne same]
    cases recording with
    | nothing => rfl
    | work other worker call history after requested about present records =>
        apply written present
        intro same
        have quiet : call.writesVote = false := by
          by_contra writes
          rw [Bool.not_eq_false] at writes
          exact vote ⟨worker, call, requested, about.trans same, writes⟩
        exact records.vote_eq quiet
    | enqueue history blank =>
        by_cases inside : id < source.store.histories.length
        · rw [List.getElem?_append_left inside]
        · have outside : source.store.histories.length ≤ id := Nat.le_of_not_lt inside
          rw [List.getElem?_append_right outside, List.getElem?_eq_none outside]
          by_cases first : id - source.store.histories.length = 0
          · rw [first]
            exact blank.vote
          · have later : [history].length ≤ id - source.store.histories.length :=
              Nat.one_le_iff_ne_zero.mpr first
            rw [List.getElem?_eq_none later]
    | requeue other history requested present =>
        exact written present fun _ => rfl
    | prune retentionDays progress requested =>
        rw [List.getElem?_mapIdx]
        cases source.store.histories[id]? <;> rfl

/-- Only a dispatch of the live worker of a job adds to the attempts of its vote. -/
theorem next_attemptsOf (hashes : Hashes) (lease : Time) (source : System)
    (label : SystemLabel) (id : JobId) :
    (source.next hashes lease label).store.attemptsOf id = source.store.attemptsOf id ∨
      ∃ worker accountId, label = .work worker (.dispatchVote id accountId) ∧
        source.Live worker id ∧
        (source.next hashes lease label).store.attemptsOf id =
          source.store.attemptsOf id + 1 := by
  unfold Store.attemptsOf
  rcases next_voteOf hashes lease source label id with same | ⟨worker, call, rfl, about, live, votes⟩
  · left
    rw [same]
  · generalize (source.next hashes lease (.work worker call)).store.voteOf id = after at votes ⊢
    generalize source.store.voteOf id = before at votes ⊢
    cases votes with
    | kept => exact Or.inl rfl
    | decided _ row untried => exact Or.inl untried
    | written _ earlier later _ attempts => exact Or.inl attempts
    | dispatched _ accountId earlier later _ attempts =>
        cases about
        exact Or.inr ⟨worker, accountId, rfl, live, attempts⟩

/-- The payload of a vote stays. -/
theorem next_requestPayload {payload : Option VoteInput} {vote : ReviewVote}
    (known : source.store.voteOf id = some vote) (same : vote.requestPayload = payload) :
    ∃ later, (source.next hashes lease label).store.voteOf id = some later ∧
      later.requestPayload = payload := by
  rcases next_voteOf hashes lease source label id with kept | ⟨worker, call, rfl, _, _, votes⟩
  · exact ⟨vote, kept.trans known, same⟩
  · rw [known] at votes
    generalize (source.next hashes lease (.work worker call)).store.voteOf id = after at votes ⊢
    cases votes with
    | kept => exact ⟨vote, rfl, same⟩
    | written _ _ later kept => exact ⟨later, rfl, kept.trans same⟩
    | dispatched _ _ _ later kept => exact ⟨later, rfl, kept.trans same⟩

end System

end PeReview
