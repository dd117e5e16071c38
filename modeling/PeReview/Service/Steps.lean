import PeReview.Service.Discipline

/-!
# The steps of the service keep the discipline

Every allowed call of a worker keeps the invariant, and the others can rely on
what it does; so can they on claims, on the environment and on Gerrit.
-/

namespace PeReview

open PeReview.Process

namespace World

variable {hashes : Hashes} {lease : Time} {worker other : WorkerId}
  {source target : World}

/-- A job has one live worker. -/
theorem eq_of_live {id : JobId} {world : World}
    (left : world.live worker id = true) (right : world.live other id = true) :
    worker = other := by
  obtain ⟨row, found, liveLeft⟩ := live_iff.mp left
  obtain ⟨same, known, liveRight⟩ := live_iff.mp right
  rw [found] at known
  cases known
  exact Row.eq_of_live liveLeft liveRight

/-- A worker that works on a job without a lease has been noted. -/
theorem Working.live {id : JobId} {world : World}
    (working : world.Working worker id) (attentive : world.Attentive worker)
    (tidy : world.stale id = false) :
    world.live worker id = true := by
  obtain ⟨claimed, unreleased⟩ := working
  rcases attentive id claimed tidy with released | live
  · rw [unreleased] at released
    cases released
  · exact live

theorem consistent_next (hashes : Hashes) {label : SystemLabel}
    (before : source.Valid lease)
    (orderly : source.system.Orderly label) :
    (source.system.next hashes lease label).Consistent := by
  have stepped : System.orderlyStep hashes lease label source.system =
      some (source.system.next hashes lease label) := by
    simp [System.orderlyStep, orderly]
  exact before.consistent.next stepped

section Permits

variable {id : JobId} {action : RowAction} {world : World}

theorem Permits.orderly (permits : world.Permits worker id action) :
    world.WhileLive worker id fun row => action.Orderly row := by
  cases action with
  | move target release => exact permits.1
  | park resume => exact permits.1
  | save => exact permits.1
  | extend | begin | mark | post | close | finish =>
      exact fun _ _ _ => True.intro

theorem Permits.silent (permits : world.Permits worker id action)
    (moves : action.keepsLease = false) :
    world.Silent worker id := by
  cases action with
  | extend | begin | mark => cases moves
  | move target release => exact permits.2
  | park resume => exact permits.2
  | save => exact permits.2
  | finish => exact permits
  | post defer => exact permits.2.1
  | close target => exact permits.1

/-- While the outcome of a POST is open, no permitted action settles it. -/
theorem Permits.unsettled {row : Row} (permits : world.Permits worker id action)
    (claimed : (world.sessions worker).job = some id)
    (attentive : world.Attentive worker) (tidy : world.stale id = false)
    (unresolved : world.resolved id < world.dispatched id)
    (found : world.row? id = some row)
    (guarded : action.guard worker world.now row) :
    action.settles = false := by
  have contradiction : world.Settled worker id →
      world.live worker id = true → False := by
    intro settled live
    have known := settled tidy live
    rw [known] at unresolved
    exact Nat.lt_irrefl _ unresolved
  have busy : (world.sessions worker).released = false →
      world.live worker id = true := fun unreleased =>
    Working.live ⟨claimed, unreleased⟩ attentive tidy
  cases action with
  | close target =>
      have live := live_iff.mpr ⟨row, found, guarded.1⟩
      exact absurd live (contradiction permits.2)
  | post defer => exact absurd (busy permits.1) (contradiction permits.2.2)
  | mark status =>
      cases status with
      | failed => exact absurd (busy permits.1) (contradiction permits.2.2)
      | ambiguous => rfl
      | pending => exact permits.elim
      | posted => exact permits.elim
  | extend | begin | move | park | save | finish => rfl

/-- A worker with a lease never overwrites a POSTED publication, and what a
worker without one overwrites is noted. -/
theorem Permits.unmarked {call : StoreCall} {row : Row} {status : PublicationStatus}
    (permits : world.Permits worker call.job (.mark status))
    (acts : call.action = some (.mark status))
    (clean : call.downgrades = true → world.posted call.job = true →
      world.live worker call.job = true)
    (found : world.row? call.job = some row)
    (posted : row.status = some .posted) :
    status = .posted := by
  have isPosted : world.posted call.job = true := by
    rw [row?] at found
    simpa [World.posted, found, Row.status] using posted
  have downgrade : call.downgrades = true ∨ status = .posted := by
    cases call <;> simp_all [StoreCall.action, StoreCall.downgrades]
  rcases downgrade with downgrades | same
  · have live := clean downgrades isPosted
    obtain ⟨known, foundAgain, alive⟩ := live_iff.mp live
    rw [found] at foundAgain
    cases foundAgain
    cases status with
    | ambiguous => exact absurd posted (permits.2 row found alive)
    | failed => exact absurd posted (permits.2.1 row found alive)
    | pending => exact permits.elim
    | posted => rfl
  · exact same

end Permits

namespace Transacted

variable {call : StoreCall}

theorem valid (ran : Transacted hashes lease worker call source target)
    (before : source.Valid lease)
    (allowed : source.Allowed worker (.store call))
    (attentive : source.Attentive worker) :
    target.Valid lease := by
  obtain ⟨claimed, permits⟩ := allowed
  have orderly : ∀ id row, source.row? id = some row → call.job = id →
      ∀ action ∈ call.action, row.live worker source.now →
        action.Orderly row := by
    rintro id row found rfl action acts live
    exact (permits action acts).orderly row found live
  refine before.advance ran.framed ran.rows ?_ ?_ ?_ ?_ ?_ ?_ ?_
  · rw [ran.system]
    have inOrder : source.system.Orderly (.work worker call) := by
      intro action acts row found live
      exact orderly call.job row found rfl action acts live
    exact consistent_next hashes before inOrder
  · intro id row changed worked kept
    exact kept.worked worked
  · intro post member ahead row changed found worked held
    refine held.worked worked ?_ ahead ?_
    · intro about same action acts
      by_contra moves
      have silent := (permits action acts).silent (by simpa using moves)
      have live : source.live worker call.job = true := by
        rw [about, same]
        exact live_iff.mpr ⟨row, found, held.live ahead⟩
      have late := silent live post member about.symm
      exact absurd ahead (Nat.not_lt.mpr late)
    · obtain ⟨_, _, expires, expiry, late⟩ := held
      exact late.trans (before.renewable post.job row found expires expiry)
  · intro id row changed input worked stored
    exact worked.payload stored
  · intro id row changed tidy unresolved found worked outstanding
    rw [ran.stale] at tidy
    refine outstanding.worked (before.consistent.valid id row found) worked
      (orderly id row found) ?_
    rintro rfl action acts guarded
    exact (permits action acts).unsettled claimed attentive tidy unresolved found
      guarded
  · intro id row changed clean found worked done
    refine done.worked (before.consistent.valid id row found) worked
      (orderly id row found) ?_
    rintro rfl posted status acts
    exact (permits _ acts).unmarked acts
      (fun downgrades => (ran.overwritten call.job clean).2 rfl downgrades) found
      posted
  · intro anyone id known
    by_cases same : anyone = worker
    · subst same
      rw [ran.job] at known
      rw [ran.lookedUp]
      exact before.lookedUp anyone id known
    · rw [ran.others anyone same] at known ⊢
      exact before.lookedUp anyone id known

theorem rely (ran : Transacted hashes lease worker call source target)
    (before : source.Valid lease)
    (allowed : source.Allowed worker (.store call))
    (attentive : source.Attentive worker) (different : worker ≠ other)
    (id : JobId) :
    Rely other id source target := by
  obtain ⟨claimed, permits⟩ := allowed
  refine Rely.framed ran.framed ran.rows (ran.others other (Ne.symm different))
    ?_ ?_ ?_
  · intro row changed found worked live
    obtain ⟨liveBefore, state, publication⟩ :=
      worked.seen (Ne.symm different) ran.now_eq.ge live
    refine ⟨liveBefore, state, ?_⟩
    rcases publication with same | ⟨status, acts, rfl, marked⟩
    · exact ⟨fun posted => by rwa [Row.status, same] at posted, fun _ => same⟩
    · have permitted := permits _ acts
      constructor
      · intro posted
        rw [marked, Row.status_withStatus] at posted
        obtain ⟨_, _, rfl⟩ := Option.map_eq_some_iff.mp posted
        exact permitted.elim
      · intro tidy
        rw [ran.stale] at tidy
        have unreleased : (source.sessions worker).released = false := by
          cases status with
          | ambiguous => exact permitted.1
          | failed => exact permitted.1
          | pending => exact permitted.elim
          | posted => exact permitted.elim
        have mine := Working.live ⟨claimed, unreleased⟩ attentive tidy
        have theirs : source.live other call.job = true :=
          live_iff.mpr ⟨row, found, liveBefore⟩
        exact absurd (eq_of_live mine theirs) different
  · intro row changed input worked stored
    exact worked.payload stored
  · intro row changed deadline ahead found worked held
    rw [ran.now_eq] at ahead
    refine held.worked worked ?_ ahead ?_
    · intro _ same
      exact absurd same different
    · obtain ⟨_, _, expires, expiry, late⟩ := held
      exact late.trans (before.renewable id row found expires expiry)

end Transacted

section Requests

variable {id : JobId}

theorem Valid.resolve {upTo : Nat} (before : source.Valid lease)
    (bounded : upTo ≤ source.dispatched id) :
    (source.resolve id upTo).Valid lease :=
  { before with
    tracked := by
      intro other tidy unresolved
      refine before.tracked other tidy (Nat.lt_of_le_of_lt ?_ unresolved)
      by_cases same : other = id
      · subst same
        simp [World.resolve]
      · simp [World.resolve, same]
    counted := by
      intro other
      by_cases same : other = id
      · subst same
        simpa [World.resolve] using ⟨before.counted other, bounded⟩
      · simpa [World.resolve, same] using before.counted other }

theorem resolve_rely {upTo : Nat} (working : source.Working worker id)
    (attentive : source.Attentive worker) (different : worker ≠ other)
    (job : JobId) :
    Rely other job source (source.resolve id upTo) :=
  { Rely.refl other job source with
    counters := by
      intro tidy live
      refine ⟨rfl, ?_⟩
      by_cases same : job = id
      · subst same
        have mine := working.live attentive tidy
        exact absurd (eq_of_live mine live) different
      · simp [World.resolve, same] }

theorem mem_withdraw {number : Nat} {post : Post}
    (member : post ∈ (source.withdraw id number).inflight) :
    post ∈ source.inflight ∧ post.matches id number = false := by
  have kept := List.mem_filter.mp member
  exact ⟨kept.1, by simpa using kept.2⟩

theorem Valid.withdraw (before : source.Valid lease) (id : JobId)
    (number : Nat) :
    (source.withdraw id number).Valid lease :=
  { before with
    holding := fun post member => before.holding post (mem_withdraw member).1
    alone := fun post member ahead other otherMember =>
      before.alone post (mem_withdraw member).1 ahead other
        (mem_withdraw otherMember).1
    uncommitted := fun post member =>
      before.uncommitted post (mem_withdraw member).1
    stored := fun post member =>
      before.stored post (member.imp (fun kept => (mem_withdraw kept).1) fun kept =>
        kept) }

theorem withdraw_rely (other : WorkerId) (source : World) (id : JobId)
    (number : Nat) (job : JobId) :
    Rely other job source (source.withdraw id number) :=
  { Rely.refl other job source with
    inflight := fun _ _ member _ _ => (mem_withdraw member).1 }

/-- The world after the POST of a review left a worker. -/
def posting (worker : WorkerId) (id : JobId) (payload : ReviewInput)
    (world : World) : World :=
  { world with
    inflight :=
      { worker, job := id, number := world.dispatched id, payload
        deadline := (world.sessions worker).granted } :: world.inflight
    dispatched :=
      Function.update world.dispatched id (world.dispatched id + 1) }

theorem Valid.posting {payload : ReviewInput} (before : source.Valid lease)
    (allowed : source.Allowed worker (.postReview id payload))
    (attentive : source.Attentive worker) :
    (source.posting worker id payload).Valid lease := by
  obtain ⟨working, stored, covered, outstanding⟩ := allowed
  have grows : ∀ job, source.dispatched job ≤
      (source.posting worker id payload).dispatched job := by
    intro job
    by_cases same : job = id
    · subst same
      simp [World.posting]
    · simp [World.posting, same]
  exact
    { before with
      holding := by
        intro post member ahead
        rcases List.mem_cons.mp member with rfl | earlier
        · exact (covered ahead).1
        · exact before.holding post earlier ahead
      alone := by
        intro post member ahead other otherMember same otherAhead
        rcases List.mem_cons.mp member with rfl | earlier
        · rcases List.mem_cons.mp otherMember with rfl | otherEarlier
          · rfl
          · have quiet := (covered ahead).2.1 other otherEarlier same
            exact absurd otherAhead (Nat.not_lt.mpr quiet)
        · rcases List.mem_cons.mp otherMember with rfl | otherEarlier
          · have quiet := (covered otherAhead).2.1 post earlier same.symm
            exact absurd ahead (Nat.not_lt.mpr quiet)
          · exact before.alone post earlier ahead other otherEarlier same
              otherAhead
      uncommitted := by
        intro post member ahead
        rcases List.mem_cons.mp member with rfl | earlier
        · exact (covered ahead).2.2
        · exact before.uncommitted post earlier ahead
      stored := by
        intro post member
        rcases member with sent | committed
        · rcases List.mem_cons.mp sent with rfl | earlier
          · exact stored
          · exact before.stored post (.inl earlier)
        · exact before.stored post (.inr committed)
      tracked := by
        intro job tidy unresolved
        by_cases same : job = id
        · subst same
          have live := working.live attentive tidy
          obtain ⟨row, found, alive⟩ := live_iff.mp live
          exact ⟨row, found, outstanding tidy row found alive⟩
        · refine before.tracked job tidy ?_
          simpa [World.posting, same] using unresolved
      counted := fun job => (before.counted job).trans (grows job)
      lookedUp := fun anyone job claimed =>
        (before.lookedUp anyone job claimed).trans (grows job) }

theorem posting_rely {payload : ReviewInput}
    (allowed : source.Allowed worker (.postReview id payload))
    (attentive : source.Attentive worker) (different : worker ≠ other)
    (job : JobId) :
    Rely other job source (source.posting worker id payload) := by
  obtain ⟨working, stored, covered, outstanding⟩ := allowed
  exact
    { Rely.refl other job source with
      inflight := by
        intro live post member same ahead
        rcases List.mem_cons.mp member with rfl | earlier
        · obtain ⟨row, found, held⟩ := (covered ahead).1
          have mine : source.live worker job = true :=
            live_iff.mpr ⟨row, by rw [← same]; exact found, held.live ahead⟩
          exact absurd (eq_of_live mine live) different
        · exact earlier
      counters := by
        intro tidy live
        by_cases same : job = id
        · subst same
          exact absurd (eq_of_live (working.live attentive tidy) live) different
        · simp [World.posting, same]
      dispatched := by
        by_cases same : job = id
        · subst same
          simp [World.posting]
        · simp [World.posting, same] }

/-- A change of the record of one worker. -/
theorem Valid.onSession {change : Session → Session}
    (before : source.Valid lease)
    (lookedUp : ∀ id, (change (source.sessions worker)).job = some id →
      (change (source.sessions worker)).lookedUp ≤ source.dispatched id) :
    (source.onSession worker change).Valid lease :=
  { before with
    lookedUp := by
      intro anyone id claimed
      by_cases same : anyone = worker
      · subst same
        rw [onSession_self] at claimed ⊢
        exact lookedUp id claimed
      · rw [onSession_of_ne _ same] at claimed ⊢
        exact before.lookedUp anyone id claimed }

theorem onSession_rely {change : Session → Session} (different : worker ≠ other)
    (job : JobId) :
    Rely other job source (source.onSession worker change) :=
  { Rely.refl other job source with
    session := onSession_of_ne _ (Ne.symm different) }

end Requests

section Calls

variable {request : Call} {choice : Choice} {answer : Answer request}

/-- What the calls that do not touch the job store can do. -/
inductive Requested (worker : WorkerId) (source : World) :
    (request : Call) → World → Answer request → Prop
  | same (request : Call) (answer : Answer request)
      (neutral : request.isNeutral = true) :
      Requested worker source request source answer
  | failed (id : JobId) (failure : GerritFailure) :
      Requested worker source (.messages id) source (.error failure.toError)
  | lookup (id : JobId) (summary tag : String) :
      Requested worker source (.listMessages id summary tag)
        (source.onSession worker fun session =>
          { session with
            seen := source.committed.any fun post => post.job = id
            lookedUp := source.dispatched id }) ()
  | found (id : JobId) (found : Bool)
      (observed : (source.sessions worker).seen = true → found = true) :
      Requested worker source (.messages id)
        (source.resolve id (source.sessions worker).lookedUp) (.ok found)
  | post (id : JobId) (payload : ReviewInput) :
      Requested worker source (.postReview id payload)
        (source.posting worker id payload) (source.dispatched id)
  | accepted (id : JobId) (number : Nat) (response : GerritResponse)
      (known : source.committed.any (Post.matches id number) = true) :
      Requested worker source (.postOutcome id number)
        (source.resolve id (number + 1)) (.accepted response)
  | rejected (id : JobId) (number : Nat) (status : Nat)
      (absent : source.committed.any (Post.matches id number) = false) :
      Requested worker source (.postOutcome id number)
        ((source.withdraw id number).resolve id (number + 1)) (.rejected status)
  | unknown (id : JobId) (number : Nat) (message : String)
      (retryAfterSeconds : Option Nat) :
      Requested worker source (.postOutcome id number)
        (source.withdraw id number) (.unknown message retryAfterSeconds)

theorem act_request (outside : ∀ call, request ≠ .store call)
    (acted : act hashes lease worker request choice source =
      some (target, answer)) :
    Requested worker source request target answer := by
  cases request with
  | store call => exact absurd rfl (outside call)
  | listMessages id summary tag =>
      cases acted
      exact .lookup id summary tag
  | messages id =>
      simp only [act] at acted
      split at acted
      · rename_i failure _
        cases acted
        exact .failed id failure
      · rename_i found _
        split at acted
        · cases acted
        · rename_i observed
          cases acted
          refine .found id found ?_
          intro seen
          simpa [seen] using observed
  | postReview id payload =>
      cases acted
      exact .post id payload
  | postOutcome id number =>
      simp only [act] at acted
      split at acted
      · split at acted
        · rename_i known
          cases acted
          exact .accepted id number _ known
        · cases acted
      · split at acted
        · cases acted
        · rename_i absent
          cases acted
          exact .rejected id number _ (by simpa using absent)
      · cases acted
        exact .unknown id number _ _
  | _ =>
      cases acted
      exact .same _ _ rfl

theorem Requested.valid (ran : Requested worker source request target answer)
    (before : source.Valid lease) (allowed : source.Allowed worker request)
    (attentive : source.Attentive worker) :
    target.Valid lease := by
  cases ran with
  | same => exact before
  | failed => exact before
  | lookup id summary tag =>
      refine before.onSession ?_
      intro job claimed
      rw [show (source.sessions worker).job = some id from allowed.1] at claimed
      cases claimed
      exact Nat.le_refl _
  | found id found observed =>
      exact before.resolve (before.lookedUp worker id allowed.1)
  | post id payload => exact before.posting allowed attentive
  | accepted id number response known => exact before.resolve allowed.2
  | rejected id number status absent =>
      exact (before.withdraw id number).resolve allowed.2
  | unknown id number message retryAfterSeconds =>
      exact before.withdraw id number

theorem Requested.rely (ran : Requested worker source request target answer)
    (allowed : source.Allowed worker request)
    (attentive : source.Attentive worker) (different : worker ≠ other)
    (id : JobId) :
    Rely other id source target := by
  cases ran with
  | same => exact Rely.refl other id source
  | failed => exact Rely.refl other id source
  | lookup => exact onSession_rely different id
  | found job found observed =>
      exact resolve_rely allowed attentive different id
  | post job payload => exact posting_rely allowed attentive different id
  | accepted job number response known =>
      exact resolve_rely allowed.1 attentive different id
  | rejected job number status absent =>
      have working : (source.withdraw job number).Working worker job := allowed.1
      exact
        (withdraw_rely other source job number id).trans
          (resolve_rely working attentive different id)
  | unknown job number message retryAfterSeconds =>
      exact withdraw_rely other source job number id

theorem act_valid (before : source.Valid lease)
    (allowed : source.Allowed worker request)
    (attentive : source.Attentive worker)
    (acted : act hashes lease worker request choice source =
      some (target, answer)) :
    target.Valid lease := by
  by_cases stored : ∃ call, request = .store call
  · obtain ⟨call, rfl⟩ := stored
    rcases act_store acted with ⟨rfl, _⟩ | ⟨ran, _⟩ | ⟨ran, _⟩
    · exact before
    · exact ran.valid before allowed attentive
    · exact ran.valid before allowed attentive
  · push Not at stored
    exact (act_request stored acted).valid before allowed attentive

theorem act_rely (before : source.Valid lease)
    (allowed : source.Allowed worker request)
    (attentive : source.Attentive worker) (different : worker ≠ other)
    (id : JobId)
    (acted : act hashes lease worker request choice source =
      some (target, answer)) :
    Rely other id source target := by
  by_cases stored : ∃ call, request = .store call
  · obtain ⟨call, rfl⟩ := stored
    rcases act_store acted with ⟨rfl, _⟩ | ⟨ran, _⟩ | ⟨ran, _⟩
    · exact Rely.refl other id target
    · exact ran.rely before allowed attentive different id
    · exact ran.rely before allowed attentive different id
  · push Not at stored
    exact (act_request stored acted).rely allowed attentive different id

end Calls

section Events

/-- A step of the database that leaves everything else alone. -/
theorem framed_next (label : SystemLabel) :
    Framed source
      { source with system := source.system.next hashes lease label } where
  clock := System.now_le_next label
  inflight := rfl
  committed := rfl
  dispatched := rfl
  resolved := rfl
  stale := fun _ tidy => tidy
  overwritten := fun _ clean => clean

/-- The rows after a step nobody of the workers takes. -/
theorem rows_environment {label : SystemLabel}
    (environment : label.isEnvironment) :
    Rows (fun _ row changed => row.Disturbed source.now changed) source
      { source with system := source.system.next hashes lease label } where
  old := fun _ _ found => System.environment_row hashes lease environment found
  fresh := fun _ _ absent reached => System.fresh_row hashes lease absent reached

/-- The rows after a heartbeat. -/
theorem rows_heartbeat (id : JobId) :
    Rows
      (fun job row changed =>
        row.Worked lease source.now job worker (.heartbeat id) changed)
      source
      { source with
        system := source.system.next hashes lease (.work worker (.heartbeat id)) }
    where
  old := fun _ _ found => System.work_row hashes lease found
  fresh := fun _ _ absent reached => System.fresh_row hashes lease absent reached

/-- The rows after a claim. -/
theorem rows_claim (locked : List JobId) :
    Rows
      (fun _ row changed => row.Offered lease source.now worker changed)
      source
      { source with
        system := source.system.next hashes lease (.claim worker locked) }
    where
  old := fun _ _ found => System.claim_row hashes lease found
  fresh := fun _ _ absent reached => System.fresh_row hashes lease absent reached

theorem Valid.environment (hashes : Hashes) {label : SystemLabel}
    (before : source.Valid lease)
    (environment : label.isEnvironment) :
    Valid lease
      { source with system := source.system.next hashes lease label } := by
  have orderly : source.system.Orderly label := by
    cases label with
    | claim | work => cases environment
    | _ => exact True.intro
  refine before.advance (framed_next label) (rows_environment environment)
    (consistent_next hashes before orderly) ?_ ?_ ?_ ?_ ?_ before.lookedUp
  · intro _ row changed step kept
    exact kept.disturbed step
  · intro post _ ahead row changed _ step held
    exact held.disturbed step ahead
  · intro _ row changed input step stored
    rw [step.payload, stored]
  · intro id row changed _ _ _ step outstanding
    exact outstanding.disturbed step
  · intro id row changed _ _ step done
    exact done.disturbed step

theorem environment_rely {label : SystemLabel} (before : source.Valid lease)
    (environment : label.isEnvironment) (id : JobId) :
    Rely other id source
      { source with system := source.system.next hashes lease label } := by
  have clock : source.now ≤ (source.system.next hashes lease label).now :=
    System.now_le_next label
  refine Rely.framed (framed_next label) (rows_environment environment) rfl
    ?_ ?_ ?_
  · intro row changed found step live
    obtain ⟨alive, rfl⟩ :=
      step.seen (before.consistent.valid id row found) clock live
    exact ⟨alive, rfl, fun posted => posted, fun _ => rfl⟩
  · intro row changed input step stored
    rw [step.payload, stored]
  · intro row changed deadline ahead _ step held
    exact held.disturbed step (Nat.lt_of_le_of_lt clock ahead)

theorem Valid.heartbeat (before : source.Valid lease) (id : JobId) :
    Valid lease
      { source with
        system :=
          source.system.next hashes lease (.work worker (.heartbeat id)) } := by
  have harmless : ∀ action ∈ (StoreCall.heartbeat id).action,
      action = .extend := by
    intro action acts
    exact (Option.some.inj acts).symm
  have orderly : ∀ row : Row, ∀ action ∈ (StoreCall.heartbeat id).action,
      action.Orderly row := by
    intro row action acts
    obtain rfl := harmless action acts
    exact True.intro
  have inOrder : source.system.Orderly (.work worker (.heartbeat id)) :=
    fun action acts row _ _ => orderly row action acts
  refine before.advance (framed_next _) (rows_heartbeat id)
    (consistent_next hashes before inOrder) ?_ ?_ ?_ ?_ ?_ before.lookedUp
  · intro _ row changed step kept
    exact kept.worked step
  · intro post _ ahead row changed found step held
    refine held.worked step ?_ ahead ?_
    · intro _ _ action acts
      rw [harmless action acts]
      rfl
    · obtain ⟨_, _, expires, expiry, late⟩ := held
      exact late.trans (before.renewable post.job row found expires expiry)
  · intro _ row changed input step stored
    exact step.payload stored
  · intro job row changed _ _ found step outstanding
    refine outstanding.worked (before.consistent.valid job row found) step
      (fun _ action acts _ => orderly row action acts) ?_
    intro _ action acts _
    rw [harmless action acts]
    rfl
  · intro job row changed _ found step done
    refine done.worked (before.consistent.valid job row found) step
      (fun _ action acts _ => orderly row action acts) ?_
    intro _ _ status acts
    cases acts

theorem heartbeat_rely (before : source.Valid lease) (id job : JobId) :
    Rely other job source
      { source with
        system :=
          source.system.next hashes lease (.work worker (.heartbeat id)) } := by
  have harmless : ∀ action ∈ (StoreCall.heartbeat id).action,
      action = .extend := by
    intro action acts
    exact (Option.some.inj acts).symm
  have clock : source.now ≤
      (source.system.next hashes lease (.work worker (.heartbeat id))).now :=
    System.now_le_next _
  refine Rely.framed (framed_next _) (rows_heartbeat id) rfl ?_ ?_ ?_
  · intro row changed found step live
    obtain ⟨alive, state, publication⟩ := step.extended harmless clock live
    refine ⟨alive, state, ?_, fun _ => publication⟩
    intro posted
    rwa [Row.status, publication] at posted
  · intro row changed input step stored
    exact step.payload stored
  · intro row changed deadline ahead found step held
    refine held.worked step ?_ (Nat.lt_of_le_of_lt clock ahead) ?_
    · intro _ _ action acts
      rw [harmless action acts]
      rfl
    · obtain ⟨_, _, expires, expiry, late⟩ := held
      exact late.trans (before.renewable job row found expires expiry)

theorem Valid.claim (before : source.Valid lease) (hashes : Hashes)
    (worker : WorkerId) (locked : List JobId) :
    Valid lease
      { source with
        system := source.system.next hashes lease (.claim worker locked) } := by
  have inOrder : source.system.Orderly (.claim worker locked) := True.intro
  refine before.advance (framed_next _) (rows_claim locked)
    (consistent_next hashes before inOrder) ?_ ?_ ?_ ?_ ?_ before.lookedUp
  · intro _ row changed step kept
    exact kept.offered step
  · intro post _ ahead row changed _ step held
    exact held.offered step ahead
  · intro _ row changed input step stored
    rw [step.payload, stored]
  · intro id row changed _ _ found step outstanding
    exact outstanding.offered (before.consistent.valid id row found) step
  · intro id row changed _ found step done
    exact done.offered (before.consistent.valid id row found) step

theorem claim_rely (hashes : Hashes) (lease : Time) (source : World)
    (different : worker ≠ other) (locked : List JobId) (id : JobId) :
    Rely other id source
      { source with
        system := source.system.next hashes lease (.claim worker locked) } := by
  have clock : source.now ≤
      (source.system.next hashes lease (.claim worker locked)).now :=
    System.now_le_next _
  refine Rely.framed (framed_next _) (rows_claim locked) rfl ?_ ?_ ?_
  · intro row changed _ step live
    obtain ⟨alive, rfl⟩ := step.seen (Ne.symm different) clock live
    exact ⟨alive, rfl, fun posted => posted, fun _ => rfl⟩
  · intro row changed input step stored
    rw [step.payload, stored]
  · intro row changed deadline ahead _ step held
    exact held.offered step (Nat.lt_of_le_of_lt clock ahead)

/-- What Gerrit commits is the only review of its job. -/
theorem Valid.commit {id : JobId} {number : Nat} {post : Post}
    (before : source.Valid lease)
    (found : source.inflight.find? (Post.matches id number) = some post)
    (ahead : source.now < post.deadline) :
    Valid lease
      { source.withdraw id number with committed := post :: source.committed } := by
  have member := List.mem_of_find?_eq_some found
  have matched : post.job = id ∧ post.number = number := by
    simpa [Post.matches] using List.find?_some found
  have withdrawn := before.withdraw id number
  exact
    { withdrawn with
      uncommitted := by
        intro later laterMember laterAhead other otherMember
        obtain ⟨earlier, unmatched⟩ := mem_withdraw laterMember
        rcases List.mem_cons.mp otherMember with rfl | known
        · intro same
          have alone :=
            before.alone other member ahead later earlier same.symm laterAhead
          simp [Post.matches, same.symm, alone, matched] at unmatched
        · exact before.uncommitted later earlier laterAhead other known
      once := by
        intro job
        by_cases same : post.job = job
        · have none : source.committed.filter (fun post => post.job = job) = [] := by
            rw [List.filter_eq_nil_iff]
            intro other known
            simpa [same] using before.uncommitted post member ahead other known
          simp [same, none]
        · simpa [same] using before.once job
      stored := by
        intro later known
        rcases known with sent | committed
        · exact withdrawn.stored later (.inl sent)
        · rcases List.mem_cons.mp committed with rfl | earlier
          · exact before.stored later (.inl member)
          · exact before.stored later (.inr earlier) }

theorem commit_rely {id : JobId} {number : Nat} {post : Post}
    (found : source.inflight.find? (Post.matches id number) = some post)
    (ahead : source.now < post.deadline) (job : JobId) :
    Rely other job source
      { source.withdraw id number with committed := post :: source.committed } :=
  { withdraw_rely other source id number job with
    committed := by
      intro _ quiet uncommitted later member
      rcases List.mem_cons.mp member with rfl | earlier
      · intro same
        have late := quiet later (List.mem_of_find?_eq_some found) same
        exact absurd ahead (Nat.not_lt.mpr late)
      · exact uncommitted later earlier }

end Events

def discipline (reviewer : ReviewWorker) :
    Discipline (effects reviewer) JobId where
  valid := Valid reviewer.settings.claimLease
  allowed := fun worker request world => world.Allowed worker request
  rely := Rely
  rely_refl := Rely.refl
  rely_trans := Rely.trans
  perform_valid := by
    intro worker request choice source target answer before allowed performed
    exact act_valid before.note allowed.note note_attentive performed
  perform_rely := by
    intro worker other id request choice source target answer different before
      allowed performed
    exact
      (note_rely worker other id source).trans
        (act_rely before.note allowed.note note_attentive different id performed)
  event_valid := by
    intro event source target before happened
    cases event with
    | environment label =>
        simp only [effects, happen] at happened
        split at happened
        · rename_i environment
          cases happened
          exact before.environment reviewer.hashes environment
        · cases happened
    | heartbeat worker id =>
        cases happened
        exact before.heartbeat id
    | commit id number =>
        simp only [effects, happen] at happened
        split at happened
        · cases happened
        · rename_i post found
          split at happened
          · rename_i ahead
            cases happened
            exact before.commit found ahead
          · cases happened
  event_rely := by
    intro worker job event source target before happened
    cases event with
    | environment label =>
        simp only [effects, happen] at happened
        split at happened
        · rename_i environment
          cases happened
          exact environment_rely before environment job
        · cases happened
    | heartbeat other id =>
        cases happened
        exact heartbeat_rely before id job
    | commit id number =>
        simp only [effects, happen] at happened
        split at happened
        · cases happened
        · rename_i post found
          split at happened
          · rename_i ahead
            cases happened
            exact commit_rely found ahead job
          · cases happened
  spawn_valid := by
    intro worker seed source target program before begun
    have begun := Option.some.inj begun
    have claimed := before.claim reviewer.hashes worker seed.locked
    simp only [begin] at begun
    split at begun
    · cases begun
      exact claimed.onSession (by simp)
    · split at begun
      · cases begun
        exact claimed.onSession (by simp)
      · cases begun
        exact claimed.onSession (fun _ _ => Nat.zero_le _)
  spawn_rely := by
    intro worker other job seed source target program different before begun
    have begun := Option.some.inj begun
    have claimed :=
      claim_rely reviewer.hashes reviewer.settings.claimLease source different
        seed.locked job
    simp only [begin] at begun
    split at begun
    · cases begun
      exact claimed.trans (onSession_rely different job)
    · split at begun
      · cases begun
        exact claimed.trans (onSession_rely different job)
      · cases begun
        exact claimed.trans (onSession_rely different job)

end World

end PeReview
