import PeReview.Jobs.RowChange
import PeReview.Process.Interference
import PeReview.Service.Worker

/-!
# The service at work

Any number of workers run `runClaimed` on the jobs they claim, over one database
and one Gerrit server.  A call may be lost before or after its commit, a review
POST commits at any moment up to its deadline, and a worker may crash between any
two calls.
-/

namespace PeReview

open PeReview.Process

structure Post where
  worker : WorkerId
  job : JobId
  number : Nat
  payload : ReviewInput
  /-- The end of the lease granted by the last publish guard of the worker. -/
  deadline : Time
  deriving DecidableEq, Repr

def Post.matches (id : JobId) (number : Nat) (post : Post) : Bool :=
  post.job = id && post.number = number

/-- What a worker is doing, for the record. -/
structure Session where
  job : Option JobId := none
  /-- The worker gave its lease back. -/
  released : Bool := false
  /-- The end of the lease its last publish guard granted. -/
  granted : Time := 0
  /-- When its last lookup began, a review of the job had been committed. -/
  seen : Bool := false
  /-- When its last lookup began, so many POSTs of the job had been dispatched. -/
  lookedUp : Nat := 0
  deriving DecidableEq, Repr

structure World where
  system : System := {}
  inflight : List Post := []
  /-- The reviews Gerrit has committed. -/
  committed : List Post := []
  sessions : WorkerId → Session := fun _ => {}
  /-- History: the number of POSTs dispatched for a job. -/
  dispatched : JobId → Nat := fun _ => 0
  /-- History: the POSTs of a job whose outcome is known. -/
  resolved : JobId → Nat := fun _ => 0
  /-- History: a worker went on with the job after losing its lease. -/
  stale : JobId → Bool := fun _ => false
  /-- History: a worker without a lease overwrote a POSTED publication. -/
  overwritten : JobId → Bool := fun _ => false

/-- How the world answers one call. -/
structure Choice where
  /-- A transaction is lost, before or after its commit. -/
  lost : Option Bool := none
  delay : Time := 0
  leaseLost : Bool := false
  change : Except GerritFailure GerritChange := .error (.transient "" none)
  accountId : Except GerritFailure Int := .error (.transient "" none)
  observation : Except PyError VoteObservation := .error (.transient "")
  messages : Except GerritFailure Bool := .error (.transient "" none)
  outcome : PostOutcome := .unknown "" none
  vote : Except GerritFailure GerritResponse := .error (.transient "" none)
  workspace : Except PyError RepositoryWorkspace := .error (.transient "")
  cleanup : Except PyError Unit := .ok ()
  text : Except PyError (Option String) := .ok none
  reply : Except PyError String := .error (.transient "")

namespace World

/-- The worker holds an unexpired lease on the job. -/
def live (worker : WorkerId) (id : JobId) (world : World) : Bool :=
  match world.system.store.row? id with
  | none => false
  | some row => row.live worker world.system.now

/-- The job is leased to the worker, expired or not. -/
def owns (worker : WorkerId) (id : JobId) (world : World) : Bool :=
  match world.system.store.row? id with
  | none => false
  | some row => row.leaseOwner = some worker

def posted (id : JobId) (world : World) : Bool :=
  match world.system.store.row? id with
  | none => false
  | some row => row.publication.map Prod.fst = some .posted

def note (worker : WorkerId) (world : World) : World :=
  match (world.sessions worker).job with
  | none => world
  | some id =>
      if (world.sessions worker).released || world.live worker id then world
      else { world with stale := Function.update world.stale id true }

def onSession (worker : WorkerId) (change : Session → Session) (world : World) :
    World :=
  { world with
    sessions :=
      Function.update world.sessions worker (change (world.sessions worker)) }

/-- The outcome of the POSTs of a job up to a number is known. -/
def resolve (id : JobId) (upTo : Nat) (world : World) : World :=
  { world with
    resolved :=
      Function.update world.resolved id (max (world.resolved id) upTo) }

def withdraw (id : JobId) (number : Nat) (world : World) : World :=
  { world with
    inflight := world.inflight.filter fun post => !post.matches id number }

end World

/-- The call writes AMBIGUOUS or FAILED. -/
def StoreCall.downgrades : StoreCall → Bool
  | .markPublicationAmbiguous _ _ | .markPublicationFailed _ _ => true
  | _ => false

def StoreCall.grants : (call : StoreCall) →
    Except PyError (Store × call.Result) → Bool
  | .refreshPublishGuard _, .ok (_, PublishGuardStatus.ok) => true
  | _, _ => false

namespace World

section Steps

variable (hashes : Hashes) (lease : Time)

def transact (worker : WorkerId) (call : StoreCall) (world : World) : World :=
  let system := world.system.next hashes lease (.work worker call)
  let target := { world with system }
  let target :=
    if call.downgrades && world.posted call.job && !world.live worker call.job then
      { target with
        overwritten := Function.update target.overwritten call.job true }
    else target
  if world.owns worker call.job && !target.owns worker call.job then
    target.onSession worker fun session => { session with released := true }
  else target

def grant (worker : WorkerId) (world : World) : World :=
  world.onSession worker fun session =>
    { session with granted := world.system.now + lease }

def act (worker : WorkerId) :
    (request : Call) → Choice → World → Option (World × Answer request)
  | .store call, choice, world =>
      match choice.lost with
      | some false => some (world, Except.error PyError.database)
      | some true =>
          some (world.transact hashes lease worker call,
            Except.error PyError.database)
      | none =>
          let outcome :=
            call.run hashes world.system.now lease worker world.system.store
          let target := world.transact hashes lease worker call
          some
            (if call.grants outcome then target.grant lease worker else target,
              outcome.map Prod.snd)
  | .clock, _, world => some (world, world.system.now)
  | .backoff _, choice, world => some (world, choice.delay)
  | .leaseLost, choice, world => some (world, choice.leaseLost)
  | .getChange _ _, choice, world =>
      some (world, choice.change.mapError GerritFailure.toError)
  | .authenticatedAccountId, choice, world =>
      some (world, choice.accountId.mapError GerritFailure.toError)
  | .codeReviewVoteObservation _ _ _, choice, world =>
      some (world, choice.observation)
  | .listMessages id _ _, _, world =>
      some
        (world.onSession worker fun session =>
          { session with
            seen := world.committed.any fun post => post.job = id
            lookedUp := world.dispatched id },
          ())
  | .messages id, choice, world =>
      match choice.messages with
      | .error failure => some (world, Except.error failure.toError)
      | .ok found =>
          -- A committed review is observed by every later successful lookup.
          if !found && (world.sessions worker).seen then none
          else
            some (world.resolve id (world.sessions worker).lookedUp,
              Except.ok found)
  | .postReview id payload, _, world =>
      let number := world.dispatched id
      let post : Post :=
        { worker, job := id, number, payload
          deadline := (world.sessions worker).granted }
      some
        ({ world with
            inflight := post :: world.inflight
            dispatched := Function.update world.dispatched id (number + 1) },
          number)
  | .postOutcome id number, choice, world =>
      let known := world.committed.any (Post.matches id number)
      match choice.outcome with
      | .accepted response =>
          if known then
            some (world.resolve id (number + 1), .accepted response)
          else none
      | .rejected status =>
          -- A definite rejection has not committed.
          if known then none
          else
            some ((world.withdraw id number).resolve id (number + 1),
              .rejected status)
      | .unknown message retryAfterSeconds =>
          some (world.withdraw id number, .unknown message retryAfterSeconds)
  | .postVote _ _, choice, world =>
      some (world, choice.vote.mapError GerritFailure.toError)
  | .openWorkspace _ _ _ _, choice, world => some (world, choice.workspace)
  | .closeWorkspace _, choice, world => some (world, choice.cleanup)
  | .readTextAtRevision _ _ _, choice, world => some (world, choice.text)
  | .ask _, choice, world => some (world, choice.reply)

inductive Event
  /-- Time, new patch sets, scope changes and operators. -/
  | environment (label : SystemLabel)
  /-- The heartbeat of a lease guard. -/
  | heartbeat (worker : WorkerId) (id : JobId)
  /-- Gerrit commits a review POST. -/
  | commit (id : JobId) (number : Nat)
  deriving DecidableEq, Repr

def happen : Event → World → Option World
  | .environment label, world =>
      if label.isEnvironment then
        some { world with system := world.system.next hashes lease label }
      else none
  | .heartbeat worker id, world =>
      some
        { world with
          system := world.system.next hashes lease (.work worker (.heartbeat id)) }
  | .commit id number, world =>
      match world.inflight.find? (Post.matches id number) with
      | none => none
      | some post =>
          if world.system.now < post.deadline then
            some
              { world.withdraw id number with
                committed := post :: world.committed }
          else none

end Steps

/-- What is left open about a claim: the rows others hold locked, and whether its
answer is lost. -/
structure Seed where
  locked : List JobId := []
  lost : Bool := false
  deriving DecidableEq, Repr

/-- A claim, and the program the slot runs for the claimed job. -/
def begin (reviewer : ReviewWorker) (worker : WorkerId) (seed : Seed)
    (world : World) : World × Program Call Answer Unit :=
  let lease := reviewer.settings.claimLease
  let record :=
    (world.system.store.claimNext world.system.now lease worker seed.locked).2
  let target :=
    { world with
      system :=
        world.system.next reviewer.hashes lease (.claim worker seed.locked) }
  match record with
  | none => (target.onSession worker fun _ => {}, .done ())
  | some record =>
      if seed.lost then (target.onSession worker fun _ => {}, .done ())
      else
        (target.onSession worker fun _ => { job := some record.id },
          runClaimed reviewer record)

/-- The atomic steps of the service. -/
def effects (reviewer : ReviewWorker) :
    Effects WorkerId World Call Answer Choice Seed Event where
  perform worker request choice world :=
    act reviewer.hashes reviewer.settings.claimLease worker request choice
      (world.note worker)
  spawn worker seed world := some (world.begin reviewer worker seed)
  event := happen reviewer.hashes reviewer.settings.claimLease

end World

abbrev Service : Type :=
  Pool WorkerId World Call Answer

namespace Service

def step (reviewer : ReviewWorker) :
    PoolLabel WorkerId Choice World.Seed World.Event → Service →
      Option Service :=
  Pool.step (World.effects reviewer)

/-- No worker is running, and nothing has been enqueued yet. -/
def Initial (service : Service) : Prop :=
  service.threads = (fun _ => .done ()) ∧
    ∃ system : System, system.Initial ∧ service.shared = { system }

end Service

end PeReview
