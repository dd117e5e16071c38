import PeReview.Data.Json
import PeReview.Review.Settings

/-!
# The round-robin review scheduler

`RoundRobinReview.run` of `review/scheduling.py` as a transition function.  Its
coroutine waits at a few places: for the audit, for the model, for a tool and for
the progress backend.  `Control` names these places, a `Reply` is what the wait
ends with, and between two waits the functions below run as the source does.
Trace events are left out: nothing reads them back.
-/

namespace PeReview.Scheduling

open PeReview.Data

/-- `ToolCall`; its arguments are what `raw_arguments` decodes to. -/
structure ToolCall where
  id : String
  name : String
  rawArguments : String
  deriving DecidableEq, Repr

/-- `LlmCompletion`, with the fields of `raw_message` some function reads. -/
structure LlmCompletion where
  content : String := ""
  toolCalls : List ToolCall := []
  inputTokens : Option Nat := none
  outputTokens : Option Nat := none
  finishReason : Option String := none
  reasoning : Option String := none
  reasoningContent : Option String := none
  deriving DecidableEq, Repr

inductive Message
  | system (content : String)
  | user (content : String)
  | assistant (content reasoning reasoningContent : Option String)
      (toolCalls : List ToolCall)
  | tool (toolCallId content : String)
  deriving DecidableEq, Repr

/-- `assistant_message_for_tool_loop`. -/
def assistantMessageForToolLoop (completion : LlmCompletion) : Message :=
  .assistant (if completion.content = "" then none else some completion.content)
    completion.reasoning completion.reasoningContent completion.toolCalls

structure WorkItem (Payload : Type) where
  key : String
  payload : Payload
  paths : List String := []
  parentKey : Option String := none
  deriving DecidableEq, Repr

/-- `_Session`. -/
structure Session (Payload : Type) where
  work : WorkItem Payload
  transcript : List Message
  initialSlots : Nat := 2
  usage : Usage := {}
  limitations : List String := []
  seen : List String := []
  pendingTools : List ToolCall := []
  rounds : Nat := 0
  calls : Nat := 0
  duplicateOnly : Bool := true
  finalReason : Option String := none
  deriving DecidableEq, Repr

structure PhaseResult (Payload : Type) where
  completed : List (WorkItem Payload) := []
  pending : List (WorkItem Payload) := []
  limitations : List String := []
  reused : Nat := 0
  saved : Nat := 0
  deriving DecidableEq, Repr

structure PhaseRun (Payload : Type) where
  settings : ReviewSettings
  phase : Phase
  messages : WorkItem Payload → List Message
  parse : String → WorkItem Payload → Except PyError ParsedReview
  split : WorkItem Payload → Except PyError (List (WorkItem Payload))
  maxUnits : Nat
  /-- `_tool_call_key`. -/
  toolCallKey : ToolCall → Except PyError String
  /-- `_tool_result_status(result) == "error"`. -/
  toolResultFailed : String → Bool

/-- How a tool answers: `rejected` is a `ValueError` or an `OSError`. -/
inductive ToolAnswer
  | text (result : String)
  | rejected (message : String)
  | raised (error : PyError)
  deriving DecidableEq, Repr

/-- A request to the model: `recovery` is the compact second request of a turn
whose first answer was truncated. -/
structure LlmTurn (Payload : Type) where
  session : Session Payload
  transcript : List Message
  final : Bool
  recovery : Bool
  deriving DecidableEq, Repr

inductive Closing (Payload : Type)
  | done
  | split (children : List (WorkItem Payload))
  | stopped
  deriving DecidableEq, Repr

def Closing.status {Payload : Type} : Closing Payload → CheckpointStatus
  | .done => .done
  | .split _ => .split
  | .stopped => .stopped

inductive Control (Payload : Type)
  /-- Calling `expand` on the items of a list, depth first. -/
  | expanding (items : List (WorkItem Payload))
  /-- At the condition of the `while` loop. -/
  | scheduling
  /-- At the start of the turn of a session, taken from the front of the queue. -/
  | turn (session : Session Payload)
  | recordingRequest (turn : LlmTurn Payload)
  | completing (turn : LlmTurn Payload)
  | recordingAnswer (turn : LlmTurn Payload)
      (answer : Except PyError LlmCompletion)
  | recordingTool (session : Session Payload) (call : ToolCall) (key : String)
  | executing (session : Session Payload) (call : ToolCall) (key : String)
  | recordingResult (session : Session Payload) (call : ToolCall) (key : String)
      (result : String)
  | saving (session : Session Payload) (closing : Closing Payload)
  | returned
  | raised (error : PyError)

inductive Reply
  | proceed
  /-- The backend recorded an invocation or saved the progress. -/
  | acknowledged
  /-- The backend raised; a save may have been committed all the same. -/
  | backendFailed (message : String)
  | completed (answer : Except PyError LlmCompletion)
  | executed (answer : ToolAnswer)

/-- The state of a run: the charges of the budget, the checkpoints of the progress
record in memory, and the local variables. -/
structure SchedulerState (Payload : Type) where
  usage : Usage := {}
  checkpoints : Dict String WorkCheckpoint := []
  /-- The checkpoints of the last save the backend acknowledged. -/
  saved : Dict String WorkCheckpoint := []
  waiting : List (WorkItem Payload) := []
  active : List (Session Payload) := []
  outcome : PhaseResult Payload := {}
  control : Control Payload

variable {Payload : Type}

/-- A call slot kept for a live session: its first requests or its final one. -/
def Session.slots (session : Session Payload) : Nat :=
  if session.calls = 0 then session.initialSlots else 1

/-- `protected`. -/
def protectedSlots (sessions : List (Session Payload)) : Nat :=
  (sessions.map Session.slots).sum

def candidateFindingInstruction : String :=
  "Return every independently actionable finding supported by this chunk; do not pad " ++
  "with speculative, duplicate, stylistic, or low-signal findings. "

/-- `_normal_final_instruction`. -/
def normalFinalInstruction (phase : Phase) : String :=
  "Emit JSON only, with no chain-of-thought, analysis, Markdown, preamble, or code " ++
  "fences. " ++
  (match phase with
    | .candidate => candidateFindingInstruction
    | .verification => "Return only findings that survive verification. ") ++
  "Do not repeat source code or the same evidence across fields."

/-- `_compact_output_instruction`. -/
def compactOutputInstruction (phase : Phase) : String :=
  "Be extremely concise. Emit JSON only, with no chain-of-thought, analysis, Markdown, " ++
  "preamble, or code fences. " ++
  (match phase with
    | .candidate => candidateFindingInstruction
    | .verification =>
        "Return at most 8 findings because verifier batches contain at most 8 " ++
        "candidates. ") ++
  "Do not repeat source code or the same evidence in multiple fields. Keep summary text " ++
  "under 800 characters; each title under 120; message under 500; impact under 300; " ++
  "evidence under 700; remediation under 300 characters."

/-- The message that forces the final answer of a session. -/
def finalRequest (phase : Phase) : Message :=
  .user <|
    "This is the final response for this session. Tools are unavailable. " ++
    "Using only evidence already in this conversation, return the " ++
    "requested final JSON now. Do not invent missing code or contracts. " ++
    "Return only evidence-supported findings; insufficient evidence is not " ++
    "proof that an earlier issue was fixed. Do not request any more tools. " ++
    normalFinalInstruction phase

/-- The message that asks for a truncated answer again. -/
def recoveryRequest (phase : Phase) : Message :=
  .user <|
    "Your previous response hit the model output limit and is " ++
    "unusable. Do not continue it. Recreate the requested JSON from " ++
    "scratch using " ++
    "only evidence already in this conversation. " ++
    compactOutputInstruction phase

/-- `json.dumps({"error": message})`. -/
def toolError (message : String) : String :=
  "\x7b\"error\": " ++ jsonString message ++ "\x7d"

namespace SchedulerState

/-- An exception leaves `run`. -/
def raise (state : SchedulerState Payload) (error : PyError) :
    SchedulerState Payload :=
  { state with control := .raised error }

/-- `expand`, of one item; the children of a saved split come next. -/
def expand (run : PhaseRun Payload) (state : SchedulerState Payload)
    (item : WorkItem Payload) (rest : List (WorkItem Payload)) :
    SchedulerState Payload :=
  match Dict.get? state.checkpoints item.key with
  | none =>
      { state with
        waiting := state.waiting ++ [item]
        control := .expanding rest }
  | some checkpoint =>
      if checkpoint.phase ≠ run.phase then
        state.raise (.value "checkpoint phase does not match work identity")
      else
        let outcome := { state.outcome with reused := state.outcome.reused + 1 }
        match checkpoint.status with
        | .split =>
            match run.split item with
            | .error error => { state with outcome }.raise error
            | .ok children =>
                { state with outcome, control := .expanding (children ++ rest) }
        | .done =>
            { state with
              outcome :=
                { outcome with
                  completed := outcome.completed ++ [item]
                  limitations := outcome.limitations ++ checkpoint.limitations }
              control := .expanding rest }
        | .stopped =>
            { state with
              outcome :=
                { outcome with
                  pending := outcome.pending ++ [item]
                  limitations := outcome.limitations ++ checkpoint.limitations }
              control := .expanding rest }

/-- The slots a new session needs to look at evidence before it answers. -/
def minimumSlots (run : PhaseRun Payload) (usage : Usage) : Nat :=
  if run.settings.maxToolRounds ≠ 0 &&
      run.settings.remainingTools run.phase usage ≠ 0 then 2
  else 1

def openSession (run : PhaseRun Payload) (item : WorkItem Payload)
    (initialSlots : Nat) : Session Payload :=
  { work := item, transcript := run.messages item, initialSlots }

/-- The inner `while` loop: take in waiting items while every live session keeps its
slots.  Returns what still waits and the active sessions. -/
def admitWaiting (run : PhaseRun Payload) (usage : Usage) (completed : Nat) :
    List (WorkItem Payload) → List (Session Payload) →
      List (WorkItem Payload) × List (Session Payload)
  | [], active => ([], active)
  | item :: rest, active =>
      if completed + active.length < run.maxUnits then
        let spare :=
          run.settings.remainingCalls run.phase usage - protectedSlots active
        let minimum := minimumSlots run usage
        let session := openSession run item (min minimum spare)
        if spare < minimum then
          -- A final-only review must not steal the final slot of a live session.
          if active ≠ [] ∨ spare < 1 then (item :: rest, active)
          else (rest, active ++ [session])
        else admitWaiting run usage completed rest (active ++ [session])
      else (item :: rest, active)

/-- What follows the `while` loop. -/
def finish (run : PhaseRun Payload) (state : SchedulerState Payload) :
    SchedulerState Payload :=
  let reason :=
    if run.phase = .candidate ∧
        run.maxUnits ≤ state.outcome.completed.length then
      "max_candidate_chunks"
    else run.phase.value ++ "_call_budget"
  let limitations :=
    if state.waiting.isEmpty then state.outcome.limitations
    else state.outcome.limitations ++ [reason]
  { state with
    outcome :=
      { state.outcome with
        pending := state.outcome.pending ++ state.waiting
        limitations := limitations.eraseDups }
    control := .returned }

/-- The head of the `while` loop up to the choice of a session. -/
def schedule (run : PhaseRun Payload) (state : SchedulerState Payload) :
    SchedulerState Payload :=
  match admitWaiting run state.usage state.outcome.completed.length state.waiting
      state.active with
  | (waiting, []) => finish run { state with waiting, active := [] }
  | (waiting, session :: active) =>
      { state with waiting, active, control := .turn session }

def checkpointOf (run : PhaseRun Payload) (session : Session Payload)
    (closing : Closing Payload) (result : Option ParsedReview)
    (limitations : List String) : WorkCheckpoint :=
  { phase := run.phase
    key := session.work.key
    parentKey := session.work.parentKey
    status := closing.status
    paths := session.work.paths
    result
    -- The discarded execution of a split item is not charged on a retry.
    usage := if closing.status = .split then {} else session.usage
    limitations := (session.limitations ++ limitations).eraseDups }

/-- `_checkpoint`, up to the save of the progress. -/
def checkpoint (run : PhaseRun Payload) (state : SchedulerState Payload)
    (session : Session Payload) (closing : Closing Payload)
    (result : Option ParsedReview := none) (limitations : List String := []) :
    SchedulerState Payload :=
  { state with
    checkpoints :=
      Dict.set state.checkpoints session.work.key
        (checkpointOf run session closing result limitations)
    control := .saving session closing }

/-- A session goes back to the end of the queue. -/
def requeue (state : SchedulerState Payload) (session : Session Payload) :
    SchedulerState Payload :=
  { state with active := state.active ++ [session], control := .scheduling }

/-- `except ContextLengthError`, around the requests of a turn. -/
def fail (run : PhaseRun Payload) (state : SchedulerState Payload)
    (session : Session Payload) (error : PyError) : SchedulerState Payload :=
  if error.cls = .contextLengthError then
    match run.split session.work with
    | .error splitError => state.raise splitError
    | .ok children => state.checkpoint run session (.split children)
  else state.raise error

/-- The end of `_tool_step`, with the text of the tool message. -/
def appendToolResult (state : SchedulerState Payload) (session : Session Payload)
    (call : ToolCall) (result : String) : SchedulerState Payload :=
  let session :=
    { session with
      transcript := session.transcript ++ [.tool call.id result]
      finalReason :=
        if session.pendingTools.isEmpty ∧ session.duplicateOnly then
          some "duplicate_tool_loop"
        else session.finalReason }
  state.requeue session

/-- `_tool_step`, up to the audit record of the call. -/
def toolStep (run : PhaseRun Payload) (state : SchedulerState Payload)
    (session : Session Payload) (call : ToolCall) : SchedulerState Payload :=
  match run.toolCallKey call with
  | .error error => state.raise error
  | .ok key =>
      if session.seen.contains key then
        state.appendToolResult session call
          (toolError "duplicate read-only tool call; use the earlier result")
      else if run.settings.remainingTools run.phase state.usage = 0 then
        let session :=
          { session with
            limitations :=
              session.limitations ++ [run.phase.value ++ "_tool_budget"]
            finalReason := some (run.phase.value ++ "_tool_budget")
            duplicateOnly := false }
        state.appendToolResult session call
          (toolError "repository tool budget exhausted; finalize from evidence")
      else { state with control := .recordingTool session call key }

/-- `_tool_step`, once the call is in the audit: it is charged and dispatched. -/
def executeTool (state : SchedulerState Payload) (session : Session Payload)
    (call : ToolCall) (key : String) : SchedulerState Payload :=
  { state with
    usage := state.usage.chargeTool
    control :=
      .executing
        { session with
          usage := session.usage.chargeTool
          duplicateOnly := false }
        call key }

/-- `_tool_step`, once the outcome is in the audit. -/
def keepToolResult (run : PhaseRun Payload) (state : SchedulerState Payload)
    (session : Session Payload) (call : ToolCall) (key result : String) :
    SchedulerState Payload :=
  let session :=
    if run.toolResultFailed result then session
    else { session with seen := session.seen ++ [key] }
  state.appendToolResult session call result

/-- `final_reason` of a turn with this many calls available. -/
def finalReason (run : PhaseRun Payload) (state : SchedulerState Payload)
    (session : Session Payload) (available : Nat) : Option String :=
  match session.finalReason with
  | some reason => some reason
  | none =>
      if run.settings.maxToolRounds ≤ session.rounds then some "max_tool_rounds"
      else if available = 1 then some (run.phase.value ++ "_final_slot")
      else if run.settings.remainingTools run.phase state.usage = 0 then
        some (run.phase.value ++ "_tool_budget")
      else none

/-- A turn of the loop, up to its first wait. -/
def beginTurn (run : PhaseRun Payload) (state : SchedulerState Payload)
    (session : Session Payload) : SchedulerState Payload :=
  match session.pendingTools with
  | call :: calls =>
      toolStep run state { session with pendingTools := calls } call
  | [] =>
      let available :=
        run.settings.remainingCalls run.phase state.usage -
          protectedSlots state.active
      if available < 1 then
        state.checkpoint run session .stopped none
          [run.phase.value ++ "_call_budget"]
      else
        match finalReason run state session available with
        | none =>
            { state with
              control :=
                .recordingRequest
                  { session
                    transcript := session.transcript
                    final := false
                    recovery := false } }
        | some reason =>
            { state with
              control :=
                .recordingRequest
                  { session :=
                      { session with
                        limitations := session.limitations ++ [reason] }
                    transcript := session.transcript ++ [finalRequest run.phase]
                    final := true
                    recovery := false } }

/-- `_llm_step`, once the intent is in the audit: the call is charged and
dispatched. -/
def dispatch (state : SchedulerState Payload) (turn : LlmTurn Payload) :
    SchedulerState Payload :=
  { state with
    usage := state.usage.chargeCall
    control :=
      .completing
        { turn with
          session :=
            { turn.session with
              usage := turn.session.usage.chargeCall
              calls := turn.session.calls + 1 } } }

/-- The tokens of an answer are charged to the budget and to the session. -/
def chargeTokens (state : SchedulerState Payload) (session : Session Payload)
    (inputTokens outputTokens : Option Nat) :
    SchedulerState Payload × Session Payload :=
  ({ state with usage := state.usage.tokens inputTokens outputTokens },
    { session with usage := session.usage.tokens inputTokens outputTokens })

/-- `_refund_incomplete_llm_usage`. -/
def refund (state : SchedulerState Payload) (session : Session Payload)
    (completion : LlmCompletion) : SchedulerState Payload × Session Payload :=
  let inputTokens := completion.inputTokens
  let outputTokens := completion.outputTokens
  ({ state with usage := state.usage.refund inputTokens outputTokens },
    { session with usage := session.usage.refund inputTokens outputTokens })

/-- The message of a work item that cannot be made smaller. -/
def truncatedAgain : PyError :=
  .transient <|
    "review response was truncated again during compact finalization " ++
    "and the work item cannot be split further"

def splitTruncated (run : PhaseRun Payload) (state : SchedulerState Payload)
    (session : Session Payload) : SchedulerState Payload :=
  match run.split session.work with
  | .error error =>
      if error.isPermanent then state.fail run session truncatedAgain
      else state.fail run session error
  | .ok [] => state.fail run session truncatedAgain
  | .ok (child :: children) =>
      state.checkpoint run session (.split (child :: children))

/-- A turn from a complete answer on. -/
def accept (run : PhaseRun Payload) (state : SchedulerState Payload)
    (turn : LlmTurn Payload) (completion : LlmCompletion) :
    SchedulerState Payload :=
  let session := turn.session
  if completion.toolCalls ≠ [] then
    if turn.final then
      state.fail run session
        (.transient "review model emitted tools in the final no-tools turn")
    else
      state.requeue
        { session with
          transcript :=
            session.transcript ++ [assistantMessageForToolLoop completion]
          pendingTools := session.pendingTools ++ completion.toolCalls
          rounds := session.rounds + 1
          duplicateOnly := true }
  else
    match run.parse completion.content session.work with
    | .error error => state.fail run session error
    | .ok result => state.checkpoint run session .done (some result)

/-- A turn from the audit record of an answer on. -/
def answered (run : PhaseRun Payload) (state : SchedulerState Payload)
    (turn : LlmTurn Payload) (answer : Except PyError LlmCompletion) :
    SchedulerState Payload :=
  match answer with
  | .error error =>
      let (state, session) :=
        state.chargeTokens turn.session error.inputTokens error.outputTokens
      state.fail run session error
  | .ok completion =>
      let (state, session) :=
        state.chargeTokens turn.session completion.inputTokens
          completion.outputTokens
      if completion.finishReason = some "length" then
        let (state, session) := state.refund session completion
        if turn.recovery then state.splitTruncated run session
        else
          { state with
            control :=
              .recordingRequest
                { session
                  transcript := turn.transcript ++ [recoveryRequest run.phase]
                  final := true
                  recovery := true } }
      else state.accept run { turn with session } completion

def saveDone (run : PhaseRun Payload) (state : SchedulerState Payload)
    (session : Session Payload) (closing : Closing Payload) :
    SchedulerState Payload :=
  let state :=
    { state with
      saved := state.checkpoints
      outcome := { state.outcome with saved := state.outcome.saved + 1 }
      control := .scheduling }
  match closing with
  | .done =>
      { state with
        outcome :=
          { state.outcome with
            completed := state.outcome.completed ++ [session.work]
            limitations := state.outcome.limitations ++ session.limitations } }
  | .split children => { state with waiting := state.waiting ++ children }
  | .stopped =>
      { state with
        outcome :=
          { state.outcome with
            pending := state.outcome.pending ++ [session.work]
            limitations :=
              state.outcome.limitations ++ [run.phase.value ++ "_call_budget"] } }

/-- The text of a tool message, unless an exception leaves the run. -/
def toolText : ToolAnswer → Except PyError String
  | .text result => .ok result
  | .rejected message => .ok (toolError message)
  | .raised error => .error error

/-- `RoundRobinReview.run` continues from a wait. -/
def step (run : PhaseRun Payload) (reply : Reply)
    (state : SchedulerState Payload) : Option (SchedulerState Payload) :=
  match state.control, reply with
  | .expanding [], .proceed => some { state with control := .scheduling }
  | .expanding (item :: rest), .proceed => some (state.expand run item rest)
  | .scheduling, .proceed => some (state.schedule run)
  | .turn session, .proceed => some (state.beginTurn run session)
  | .recordingRequest turn, .acknowledged => some (state.dispatch turn)
  | .completing turn, .completed answer =>
      some { state with control := .recordingAnswer turn answer }
  | .recordingAnswer turn answer, .acknowledged =>
      some (state.answered run turn answer)
  | .recordingTool session call key, .acknowledged =>
      some (state.executeTool session call key)
  | .executing session call key, .executed answer =>
      match toolText answer with
      | .error error => some (state.raise error)
      | .ok result =>
          some { state with control := .recordingResult session call key result }
  | .recordingResult session call key result, .acknowledged =>
      some (state.keepToolResult run session call key result)
  | .saving session closing, .acknowledged =>
      some (state.saveDone run session closing)
  | .recordingRequest _, .backendFailed message
  | .recordingAnswer _ _, .backendFailed message
  | .recordingTool _ _ _, .backendFailed message
  | .recordingResult _ _ _ _, .backendFailed message
  | .saving _ _, .backendFailed message =>
      some (state.raise (.transient message))
  | _, _ => none

/-- The call of `run` on a list of work items, with the charges and the checkpoints
of earlier runs. -/
def start (work : List (WorkItem Payload)) (usage : Usage)
    (checkpoints : Dict String WorkCheckpoint) : SchedulerState Payload :=
  { usage, checkpoints, saved := checkpoints, control := .expanding work }

end SchedulerState

end PeReview.Scheduling
