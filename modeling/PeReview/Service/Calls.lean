import PeReview.Jobs.Calls
import PeReview.Process.Program
import PeReview.Review.Engine

/-!
# The calls of a worker

Everything a worker does that others can observe, or that can fail: the
transactions of the job store, the requests to Gerrit, and the work in a
repository.  A request that posts a review is two calls, since the world goes on
between the moment it leaves the worker and the moment its outcome is known; so
is a lookup of the messages of a change.
-/

namespace PeReview

open PeReview.Process

/-- What `get_change` returns of a Gerrit change. -/
structure GerritChange where
  currentRevision : String
  status : String
  ref : Option String := none
  branch : Option String := none
  subject : Option String := none
  commitMessage : Option String := none
  deriving DecidableEq, Repr

/-- `VoteObservation`. -/
structure VoteObservation where
  currentValue : Int
  canVote : Bool
  markerFound : Bool
  labelExists : Bool
  changeStatus : String
  deriving DecidableEq, Repr

/-- `RepositoryWorkspace`. -/
structure RepositoryWorkspace where
  project : String
  revisionSha : String
  baseRevisionSha : Option String
  root : String
  diff : List Char
  changedFiles : List String
  changedLines : List ChangedLine
  skipReason : Option String := none
  deriving DecidableEq, Repr

/-- What the transport tells about a review POST. -/
inductive PostOutcome
  /-- A success status. -/
  | accepted (response : GerritResponse)
  /-- A status that rules out that the review was applied. -/
  | rejected (status : Nat)
  /-- A timeout, a broken connection, a retryable status or an unreadable body. -/
  | unknown (message : String) (retryAfterSeconds : Option Nat)
  deriving DecidableEq, Repr

/-- What `_request_json` makes of the outcome. -/
def PostOutcome.toExcept : PostOutcome → Except PyError GerritResponse
  | .accepted response => .ok response
  | .rejected status =>
      .error (.permanent s!"Gerrit REST POST returned HTTP {status}")
  | .unknown message retryAfterSeconds =>
      .error { PyError.transient message with retryAfterSeconds }

/-- How a request to Gerrit fails: in transport or with an unusable answer, with
a definite refusal, or before it is sent. -/
inductive GerritFailure
  | transient (message : String) (retryAfterSeconds : Option Nat)
  | permanent (message : String)
  | invalid (message : String)
  deriving DecidableEq, Repr

def GerritFailure.toError : GerritFailure → PyError
  | .transient message retryAfterSeconds =>
      { PyError.transient message with retryAfterSeconds }
  | .permanent message => .permanent message
  | .invalid message => .value message

inductive Call
  | store (call : StoreCall)
  /-- `datetime.now(UTC)`. -/
  | clock
  /-- `exponential_backoff`, which draws its jitter. -/
  | backoff (attempt : Nat)
  /-- `lease.lost.is_set()`. -/
  | leaseLost
  | getChange (project : String) (changeNumber : Int)
  | authenticatedAccountId
  | codeReviewVoteObservation (job : JobId) (accountId : Int)
      (payload : VoteInput)
  /-- `has_published_review`: the request for the messages of the change. -/
  | listMessages (job : JobId) (summary tag : String)
  /-- `has_published_review`: whether they contain the review. -/
  | messages (job : JobId)
  /-- The POST of a review leaves the worker. -/
  | postReview (job : JobId) (payload : ReviewInput)
  /-- The outcome of that POST. -/
  | postOutcome (job : JobId) (number : Nat)
  | postVote (job : JobId) (payload : VoteInput)
  | openWorkspace (project : String) (changeNumber : Int) (revisionSha : String)
      (ref : Option String)
  | closeWorkspace (root : String)
  | readTextAtRevision (root path : String) (maxBytes : Nat)
  | ask (request : String)
  deriving DecidableEq, Repr

/-- The calls that leave the world as it is. -/
def Call.isNeutral : Call → Bool
  | .store _ | .listMessages _ _ _ | .messages _ | .postReview _ _
  | .postOutcome _ _ => false
  | _ => true

def Answer : Call → Type
  | .store call => Except PyError call.Result
  | .clock => Time
  | .backoff _ => Time
  | .leaseLost => Bool
  | .getChange _ _ => Except PyError GerritChange
  | .authenticatedAccountId => Except PyError Int
  | .codeReviewVoteObservation _ _ _ => Except PyError VoteObservation
  | .listMessages _ _ _ => Unit
  | .messages _ => Except PyError Bool
  | .postReview _ _ => Nat
  | .postOutcome _ _ => PostOutcome
  | .postVote _ _ => Except PyError GerritResponse
  | .openWorkspace _ _ _ _ => Except PyError RepositoryWorkspace
  | .closeWorkspace _ => Except PyError Unit
  | .readTextAtRevision _ _ _ => Except PyError (Option String)
  | .ask _ => Except PyError String

abbrev Task (Value : Type) : Type :=
  ExceptT PyError (Program Call Answer) Value

namespace Task

variable {Value Locals : Type}

def store (call : StoreCall) : Task call.Result :=
  ExceptT.mk (Program.perform (Call.store call))

/-- A call that cannot raise. -/
def plain (request : Call) : Task (Answer request) :=
  ExceptT.lift (Program.perform request)

/-- A block whose local variables are read after an exception. -/
abbrev Block (Locals Value : Type) : Type :=
  ExceptT PyError (StateT Locals (Program Call Answer)) Value

/-- A step of a block that leaves the local variables alone. -/
def block (task : Task Value) : Block Locals Value :=
  ExceptT.mk fun locals => task.run.bind fun result => .done (result, locals)

/-- Run a block, and give its handler the exception and the local variables. -/
def tryWith (locals : Locals) (body : Block Locals Value)
    (handler : Locals → PyError → Task Value) : Task Value :=
  ExceptT.mk <| (body.run locals).bind fun
    | (.ok value, _) => .done (.ok value)
    | (.error error, final) => (handler final error).run

end Task

end PeReview
