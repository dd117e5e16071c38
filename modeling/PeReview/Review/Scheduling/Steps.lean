import PeReview.Process.Transition
import PeReview.Review.Scheduling

/-!
# What a step of the scheduler can do

The transition function of the scheduler inverted once: one constructor for each way
a run continues.  The invariants of the scheduler are derived from it.
-/

namespace PeReview.Scheduling

open PeReview.Data PeReview.Process

variable {Payload : Type}

def Session.billed (session : Session Payload)
    (inputTokens outputTokens : Option Nat) : Session Payload :=
  { session with usage := session.usage.tokens inputTokens outputTokens }

/-- A session once a truncated answer is charged to it and refunded. -/
def Session.refunded (session : Session Payload) (completion : LlmCompletion) :
    Session Payload :=
  let usage :=
    session.usage.tokens completion.inputTokens completion.outputTokens
  { session with
    usage := usage.refund completion.inputTokens completion.outputTokens }

namespace SchedulerState

def billed (state : SchedulerState Payload)
    (inputTokens outputTokens : Option Nat) : SchedulerState Payload :=
  { state with usage := state.usage.tokens inputTokens outputTokens }

/-- The budget charged with a truncated answer and refunded. -/
def refunded (state : SchedulerState Payload) (completion : LlmCompletion) :
    SchedulerState Payload :=
  let usage := state.usage.tokens completion.inputTokens completion.outputTokens
  { state with
    usage := usage.refund completion.inputTokens completion.outputTokens }

/-- Admission takes items from the front of the queue and opens a session for each,
after those that are live. -/
theorem admit_opened
    {run : PhaseRun Payload} {usage : Usage} {completed : Nat}
    {waiting left : List (WorkItem Payload)}
    {active sessions : List (Session Payload)}
    (admitted : admitWaiting run usage completed waiting active = (left, sessions)) :
    ∃ opened : List (WorkItem Payload × Nat),
      waiting = opened.map Prod.fst ++ left ∧
        sessions =
          active ++ opened.map fun entry => openSession run entry.1 entry.2 := by
  induction waiting generalizing active with
  | nil =>
      cases admitted
      exact ⟨[], rfl, (List.append_nil _).symm⟩
  | cons item rest inductionHypothesis =>
      have unchanged :
          (item :: rest, active) = (left, sessions) →
          ∃ opened : List (WorkItem Payload × Nat),
            item :: rest = opened.map Prod.fst ++ left ∧
              sessions =
                active ++
                  opened.map fun entry => openSession run entry.1 entry.2 := by
        intro same
        cases same
        exact ⟨[], rfl, (List.append_nil _).symm⟩
      unfold admitWaiting at admitted
      split at admitted
      · dsimp only at admitted
        split at admitted
        · split at admitted
          · exact unchanged admitted
          · cases admitted
            exact ⟨[(item, _)], rfl, rfl⟩
        · obtain ⟨opened, taken, later⟩ := inductionHypothesis admitted
          let slots :=
            min (minimumSlots run usage)
              (run.settings.remainingCalls run.phase usage - protectedSlots active)
          refine ⟨(item, slots) :: opened, ?_, ?_⟩
          · rw [List.map_cons, List.cons_append, ← taken]
          · rw [later, List.append_assoc]
            rfl
      · exact unchanged admitted

inductive Steps (run : PhaseRun Payload) (source : SchedulerState Payload) :
    SchedulerState Payload → Prop
  | expanded (stands : source.control = .expanding []) :
      Steps run source { source with control := .scheduling }
  | wait (item : WorkItem Payload) (rest : List (WorkItem Payload))
      (stands : source.control = .expanding (item :: rest))
      (unknown : Dict.get? source.checkpoints item.key = none) :
      Steps run source
        { source with
          waiting := source.waiting ++ [item]
          control := .expanding rest }
  | reuseSplit (item : WorkItem Payload) (rest : List (WorkItem Payload))
      (checkpoint : WorkCheckpoint) (children : List (WorkItem Payload))
      (stands : source.control = .expanding (item :: rest))
      (known : Dict.get? source.checkpoints item.key = some checkpoint)
      (status : checkpoint.status = .split)
      (splits : run.split item = .ok children) :
      Steps run source
        { source with
          outcome := { source.outcome with reused := source.outcome.reused + 1 }
          control := .expanding (children ++ rest) }
  | reuseDone (item : WorkItem Payload) (rest : List (WorkItem Payload))
      (checkpoint : WorkCheckpoint)
      (stands : source.control = .expanding (item :: rest))
      (known : Dict.get? source.checkpoints item.key = some checkpoint)
      (status : checkpoint.status = .done) :
      Steps run source
        { source with
          outcome :=
            { source.outcome with
              reused := source.outcome.reused + 1
              completed := source.outcome.completed ++ [item]
              limitations :=
                source.outcome.limitations ++ checkpoint.limitations }
          control := .expanding rest }
  | reuseStopped (item : WorkItem Payload) (rest : List (WorkItem Payload))
      (checkpoint : WorkCheckpoint)
      (stands : source.control = .expanding (item :: rest))
      (known : Dict.get? source.checkpoints item.key = some checkpoint)
      (status : checkpoint.status = .stopped) :
      Steps run source
        { source with
          outcome :=
            { source.outcome with
              reused := source.outcome.reused + 1
              pending := source.outcome.pending ++ [item]
              limitations :=
                source.outcome.limitations ++ checkpoint.limitations }
          control := .expanding rest }
  | finish (waiting : List (WorkItem Payload))
      (stands : source.control = .scheduling)
      (admitted :
        admitWaiting run source.usage source.outcome.completed.length source.waiting
          source.active = (waiting, [])) :
      Steps run source (finish run { source with waiting, active := [] })
  | begin (waiting : List (WorkItem Payload)) (session : Session Payload)
      (active : List (Session Payload)) (stands : source.control = .scheduling)
      (admitted :
        admitWaiting run source.usage source.outcome.completed.length source.waiting
          source.active = (waiting, session :: active)) :
      Steps run source { source with waiting, active, control := .turn session }
  | suppressDuplicate (session : Session Payload) (call : ToolCall)
      (calls : List ToolCall) (stands : source.control = .turn session)
      (pending : session.pendingTools = call :: calls) :
      Steps run source
        (source.appendToolResult { session with pendingTools := calls } call
          (toolError "duplicate read-only tool call; use the earlier result"))
  | suppressTool (session : Session Payload) (call : ToolCall)
      (calls : List ToolCall) (stands : source.control = .turn session)
      (pending : session.pendingTools = call :: calls) :
      Steps run source
        (source.appendToolResult
          { session with
            pendingTools := calls
            limitations :=
              session.limitations ++ [run.phase.value ++ "_tool_budget"]
            finalReason := some (run.phase.value ++ "_tool_budget")
            duplicateOnly := false }
          call
          (toolError "repository tool budget exhausted; finalize from evidence"))
  | recordTool (session : Session Payload) (call : ToolCall)
      (calls : List ToolCall) (key : String)
      (stands : source.control = .turn session)
      (pending : session.pendingTools = call :: calls)
      (affordable :
        run.settings.remainingTools run.phase source.usage ≠ 0) :
      Steps run source
        { source with
          control := .recordingTool { session with pendingTools := calls } call key }
  | stop (session : Session Payload) (stands : source.control = .turn session)
      (pending : session.pendingTools = [])
      (exhausted :
        run.settings.remainingCalls run.phase source.usage -
          protectedSlots source.active < 1) :
      Steps run source
        (source.checkpoint run session .stopped none
          [run.phase.value ++ "_call_budget"])
  | ask (session : Session Payload) (stands : source.control = .turn session)
      (pending : session.pendingTools = [])
      (available :
        1 ≤ run.settings.remainingCalls run.phase source.usage -
          protectedSlots source.active)
      (open_ :
        source.finalReason run session
          (run.settings.remainingCalls run.phase source.usage -
            protectedSlots source.active) = none) :
      Steps run source
        { source with
          control :=
            .recordingRequest
              { session
                transcript := session.transcript
                final := false
                recovery := false } }
  | askFinal (session : Session Payload) (reason : String)
      (stands : source.control = .turn session)
      (pending : session.pendingTools = [])
      (available :
        1 ≤ run.settings.remainingCalls run.phase source.usage -
          protectedSlots source.active) :
      Steps run source
        { source with
          control :=
            .recordingRequest
              { session :=
                  { session with
                    limitations := session.limitations ++ [reason] }
                transcript := session.transcript ++ [finalRequest run.phase]
                final := true
                recovery := false } }
  | dispatch (turn : LlmTurn Payload)
      (stands : source.control = .recordingRequest turn) :
      Steps run source (source.dispatch turn)
  | receive (turn : LlmTurn Payload) (answer : Except PyError LlmCompletion)
      (stands : source.control = .completing turn) :
      Steps run source { source with control := .recordingAnswer turn answer }
  | splitRejected (turn : LlmTurn Payload) (error : PyError)
      (children : List (WorkItem Payload))
      (stands : source.control = .recordingAnswer turn (.error error))
      (splits : run.split turn.session.work = .ok children) :
      Steps run source
        ((source.billed error.inputTokens error.outputTokens).checkpoint run
          (turn.session.billed error.inputTokens error.outputTokens)
          (.split children))
  | splitTruncated (turn : LlmTurn Payload) (completion : LlmCompletion)
      (children : List (WorkItem Payload))
      (stands : source.control = .recordingAnswer turn (.ok completion))
      (splits : run.split turn.session.work = .ok children) :
      Steps run source
        ((source.refunded completion).checkpoint run
          (turn.session.refunded completion) (.split children))
  | splitUnparsed (turn : LlmTurn Payload) (completion : LlmCompletion)
      (children : List (WorkItem Payload))
      (stands : source.control = .recordingAnswer turn (.ok completion))
      (splits : run.split turn.session.work = .ok children) :
      Steps run source
        ((source.billed completion.inputTokens completion.outputTokens).checkpoint
          run
          (turn.session.billed completion.inputTokens completion.outputTokens)
          (.split children))
  | recover (turn : LlmTurn Payload) (completion : LlmCompletion)
      (stands : source.control = .recordingAnswer turn (.ok completion))
      (first : turn.recovery = false) :
      Steps run source
        { source.refunded completion with
          control :=
            .recordingRequest
              { session := turn.session.refunded completion
                transcript := turn.transcript ++ [recoveryRequest run.phase]
                final := true
                recovery := true } }
  | callTools (turn : LlmTurn Payload) (completion : LlmCompletion)
      (stands : source.control = .recordingAnswer turn (.ok completion))
      (calls : completion.toolCalls ≠ []) (open_ : turn.final = false) :
      Steps run source
        ((source.billed completion.inputTokens completion.outputTokens).requeue
          { turn.session.billed completion.inputTokens completion.outputTokens with
            transcript :=
              turn.session.transcript ++ [assistantMessageForToolLoop completion]
            pendingTools := turn.session.pendingTools ++ completion.toolCalls
            rounds := turn.session.rounds + 1
            duplicateOnly := true })
  | done (turn : LlmTurn Payload) (completion : LlmCompletion)
      (result : ParsedReview)
      (stands : source.control = .recordingAnswer turn (.ok completion))
      (parsed : run.parse completion.content turn.session.work = .ok result) :
      Steps run source
        ((source.billed completion.inputTokens completion.outputTokens).checkpoint
          run
          (turn.session.billed completion.inputTokens completion.outputTokens)
          .done (some result))
  | execute (session : Session Payload) (call : ToolCall) (key : String)
      (stands : source.control = .recordingTool session call key) :
      Steps run source (source.executeTool session call key)
  | result (session : Session Payload) (call : ToolCall) (key text : String)
      (stands : source.control = .executing session call key) :
      Steps run source
        { source with control := .recordingResult session call key text }
  | keepResult (session : Session Payload) (call : ToolCall) (key text : String)
      (stands : source.control = .recordingResult session call key text) :
      Steps run source (source.keepToolResult run session call key text)
  | saved (session : Session Payload) (closing : Closing Payload)
      (stands : source.control = .saving session closing) :
      Steps run source (source.saveDone run session closing)
  | raised (usage : Usage) (outcome : PhaseResult Payload) (error : PyError)
      (calls : usage.llmCalls ≤ source.usage.llmCalls)
      (tools : usage.toolCalls = source.usage.toolCalls) :
      Steps run source
        { source with usage, outcome, control := .raised error }

/-- A turn is not final only while rounds, tools and a second call are left. -/
theorem finalReason_eq_none
    {run : PhaseRun Payload} {state : SchedulerState Payload}
    {session : Session Payload} {available : Nat}
    (open_ : state.finalReason run session available = none) :
    session.rounds < run.settings.maxToolRounds ∧ available ≠ 1 ∧
      run.settings.remainingTools run.phase state.usage ≠ 0 := by
  unfold finalReason at open_
  split at open_
  · cases open_
  · split at open_
    · cases open_
    · rename_i rounds
      split at open_
      · cases open_
      · rename_i several
        split at open_
        · cases open_
        · rename_i tools
          exact ⟨Nat.not_le.mp rounds, several, tools⟩

@[simp]
theorem usage_billed_llmCalls
    (state : SchedulerState Payload) (inputTokens outputTokens : Option Nat) :
    (state.billed inputTokens outputTokens).usage.llmCalls =
      state.usage.llmCalls :=
  rfl

@[simp]
theorem usage_refunded_llmCalls
    (state : SchedulerState Payload) (completion : LlmCompletion) :
    (state.refunded completion).usage.llmCalls = state.usage.llmCalls - 1 :=
  rfl

section Inversion

variable {run : PhaseRun Payload} {source target : SchedulerState Payload}

/-- Raising with the budget and the outcome as they are. -/
theorem Steps.raise (error : PyError) :
    Steps run source (source.raise error) :=
  .raised source.usage source.outcome error (Nat.le_refl _) rfl

theorem steps_expand
    {item : WorkItem Payload} {rest : List (WorkItem Payload)}
    (stands : source.control = .expanding (item :: rest)) :
    Steps run source (source.expand run item rest) := by
  unfold expand
  split
  · rename_i unknown
    exact .wait item rest stands unknown
  · rename_i checkpoint known
    split
    · exact .raise _
    · dsimp only
      split
      · rename_i status
        split
        · exact .raised source.usage _ _ (Nat.le_refl _) rfl
        · rename_i children splits
          exact .reuseSplit item rest checkpoint children stands known status splits
      · rename_i status
        exact .reuseDone item rest checkpoint stands known status
      · rename_i status
        exact .reuseStopped item rest checkpoint stands known status

theorem steps_schedule (stands : source.control = .scheduling) :
    Steps run source (source.schedule run) := by
  unfold schedule
  split
  · rename_i waiting admitted
    exact .finish waiting stands admitted
  · rename_i waiting session active admitted
    exact .begin waiting session active stands admitted

theorem steps_beginTurn
    {session : Session Payload} (stands : source.control = .turn session) :
    Steps run source (source.beginTurn run session) := by
  unfold beginTurn
  split
  · rename_i call calls pending
    unfold toolStep
    split
    · exact .raise _
    · rename_i key _
      dsimp only
      split
      · exact .suppressDuplicate session call calls stands pending
      · split
        · exact .suppressTool session call calls stands pending
        · rename_i affordable
          exact .recordTool session call calls key stands pending affordable
  · rename_i pending
    dsimp only
    split
    · rename_i exhausted
      exact .stop session stands pending exhausted
    · rename_i enough
      have available := Nat.not_lt.mp enough
      split
      · rename_i open_
        exact .ask session stands pending available open_
      · rename_i reason _
        exact .askFinal session reason stands pending available

/-- An exception inside a turn, once the answer is charged. -/
theorem steps_fail
    {usage : Usage} {session : Session Payload} {error : PyError}
    (calls : usage.llmCalls ≤ source.usage.llmCalls)
    (tools : usage.toolCalls = source.usage.toolCalls)
    (splits : ∀ children, run.split session.work = .ok children →
      Steps run source
        (({ source with usage } : SchedulerState Payload).checkpoint run session
          (.split children))) :
    Steps run source
      (({ source with usage } : SchedulerState Payload).fail run session error) := by
  unfold fail
  split
  · split
    · exact .raised usage source.outcome _ calls tools
    · rename_i children split_
      exact splits children split_
  · exact .raised usage source.outcome _ calls tools

theorem steps_accept
    {turn : LlmTurn Payload} {completion : LlmCompletion}
    (stands : source.control = .recordingAnswer turn (.ok completion)) :
    Steps run source
      ((source.billed completion.inputTokens completion.outputTokens).accept run
        { turn with
          session :=
            turn.session.billed completion.inputTokens completion.outputTokens }
        completion) := by
  have failing : ∀ error : PyError,
      Steps run source
        ((source.billed completion.inputTokens completion.outputTokens).fail run
          (turn.session.billed completion.inputTokens completion.outputTokens)
          error) := by
    intro error
    refine steps_fail (Nat.le_refl _) rfl ?_
    intro children splits
    exact .splitUnparsed turn completion children stands splits
  unfold accept
  dsimp only
  split
  · rename_i calls
    split
    · exact failing _
    · rename_i open_
      exact .callTools turn completion stands calls (Bool.not_eq_true _ ▸ open_)
  · split
    · exact failing _
    · rename_i result parsed
      exact .done turn completion result stands parsed

theorem steps_answered
    {turn : LlmTurn Payload} {answer : Except PyError LlmCompletion}
    (stands : source.control = .recordingAnswer turn answer) :
    Steps run source (source.answered run turn answer) := by
  cases answer with
  | error error =>
      refine steps_fail (Nat.le_refl _) rfl ?_
      intro children splits
      exact .splitRejected turn error children stands splits
  | ok completion =>
      simp only [answered, chargeTokens]
      split
      · simp only [refund]
        split
        · have failing : ∀ error : PyError,
              Steps run source
                ((source.refunded completion).fail run
                  (turn.session.refunded completion) error) := by
            intro error
            refine steps_fail (Nat.sub_le _ _) rfl ?_
            intro children splits
            exact .splitTruncated turn completion children stands splits
          unfold SchedulerState.splitTruncated
          split
          · split
            · exact failing _
            · exact failing _
          · exact failing _
          · rename_i child children splits
            exact .splitTruncated turn completion (child :: children) stands splits
        · rename_i first
          exact .recover turn completion stands (Bool.not_eq_true _ ▸ first)
      · exact steps_accept stands

/-- Every step of a run is one of the listed ones. -/
theorem Steps.of_step {reply : Reply} (stepped : step run reply source = some target) :
    Steps run source target := by
  unfold step at stepped
  split at stepped
  all_goals first | cases stepped | skip
  · rename_i stands
    exact .expanded stands
  · rename_i stands
    exact steps_expand stands
  · rename_i stands
    exact steps_schedule stands
  · rename_i stands
    exact steps_beginTurn stands
  · rename_i turn stands
    exact .dispatch turn stands
  · rename_i turn answer stands
    exact .receive turn answer stands
  · rename_i stands
    exact steps_answered stands
  · rename_i session call key stands
    exact .execute session call key stands
  · rename_i session call key answer stands
    split at stepped
    · cases stepped
      exact .raise _
    · rename_i text _
      cases stepped
      exact .result session call key text stands
  · rename_i session call key text stands
    exact .keepResult session call key text stands
  · rename_i session closing stands
    exact .saved session closing stands
  all_goals exact .raise _

end Inversion

/-- The item of the session the run works on; a session that is being saved has been
closed. -/
def itemInHand : Control Payload → List (WorkItem Payload)
  | .turn session
  | .recordingTool session _ _
  | .executing session _ _
  | .recordingResult session _ _ _ => [session.work]
  | .recordingRequest turn
  | .completing turn
  | .recordingAnswer turn _ => [turn.session.work]
  | .expanding _ | .scheduling | .saving _ _ | .returned | .raised _ => []

def liveWork (state : SchedulerState Payload) : List (WorkItem Payload) :=
  itemInHand state.control ++ state.active.map Session.work

theorem liveWork_requeue
    (state : SchedulerState Payload) (session : Session Payload) :
    liveWork (state.requeue session) =
      state.active.map Session.work ++ [session.work] := by
  simp [liveWork, itemInHand, requeue]

theorem liveWork_appendToolResult
    (state : SchedulerState Payload) (session : Session Payload)
    (call : ToolCall) (text : String) :
    liveWork (state.appendToolResult session call text) =
      state.active.map Session.work ++ [session.work] :=
  liveWork_requeue state _

theorem liveWork_keepToolResult
    (run : PhaseRun Payload) (state : SchedulerState Payload)
    (session : Session Payload) (call : ToolCall) (key text : String) :
    liveWork (state.keepToolResult run session call key text) =
      state.active.map Session.work ++ [session.work] := by
  unfold keepToolResult
  dsimp only
  split
  · exact liveWork_appendToolResult state _ call text
  · exact liveWork_appendToolResult state _ call text

def Reached (run : PhaseRun Payload) (work : List (WorkItem Payload))
    (usage : Usage) (checkpoints : Dict String WorkCheckpoint)
    (state : SchedulerState Payload) : Prop :=
  Reachable (step run) (fun first => first = start work usage checkpoints) state

/-- The induction rule of a run: what holds at its start and is kept by every step
holds in every state of it. -/
theorem Reached.invariant
    {run : PhaseRun Payload} {work : List (WorkItem Payload)} {usage : Usage}
    {checkpoints : Dict String WorkCheckpoint}
    {kept : SchedulerState Payload → Prop}
    (base : kept (start work usage checkpoints))
    (preserved : ∀ source target, kept source → Steps run source target →
      kept target)
    {state : SchedulerState Payload}
    (reached : Reached run work usage checkpoints state) :
    kept state := by
  refine Reachable.invariant ?_ ?_ reached
  · rintro first rfl
    exact base
  · intro reply source target holds stepped
    exact preserved source target holds (.of_step stepped)

/-- The checkpoint of a session, as `_checkpoint` builds it. -/
structure ClosedBy (run : PhaseRun Payload) (session : Session Payload)
    (closing : Closing Payload) (checkpoint : WorkCheckpoint) : Prop where
  phase : checkpoint.phase = run.phase
  status : checkpoint.status = closing.status
  usage :
    checkpoint.usage = if closing.status = .split then {} else session.usage

/-- The checkpoints in memory are those of the last acknowledged save, and while a
session is being closed its checkpoint besides. -/
def Persisted (run : PhaseRun Payload) (state : SchedulerState Payload) : Prop :=
  match state.control with
  | .saving session closing =>
      ∃ checkpoint, ClosedBy run session closing checkpoint ∧
        state.checkpoints = Dict.set state.saved session.work.key checkpoint
  | .raised _ => True
  | _ => state.checkpoints = state.saved

theorem persisted_checkpoint
    {run : PhaseRun Payload} {state : SchedulerState Payload}
    {session : Session Payload} {closing : Closing Payload}
    {result : Option ParsedReview} {limitations : List String}
    (persisted : state.checkpoints = state.saved) :
    Persisted run (state.checkpoint run session closing result limitations) := by
  refine ⟨checkpointOf run session closing result limitations,
    ⟨rfl, rfl, rfl⟩, ?_⟩
  simp only [SchedulerState.checkpoint, persisted]

theorem persisted_steps
    {run : PhaseRun Payload} {source target : SchedulerState Payload}
    (persisted : Persisted run source) (steps : Steps run source target) :
    Persisted run target := by
  cases steps with
  | raised usage outcome error calls tools =>
      exact True.intro
  | saved session closing stands =>
      cases closing with
      | done | stopped | split children => exact rfl
  | stop session stands pending exhausted
  | splitRejected turn error children stands splits
  | splitTruncated turn completion children stands splits
  | splitUnparsed turn completion children stands splits
  | done turn completion result stands parsed =>
      simp only [Persisted, stands] at persisted
      exact persisted_checkpoint persisted
  | keepResult session call key text stands =>
      simp only [Persisted, stands] at persisted
      unfold keepToolResult
      dsimp only
      split
      · exact persisted
      · exact persisted
  | expanded stands | wait item rest stands unknown
  | reuseSplit item rest checkpoint children stands known status splits
  | reuseDone item rest checkpoint stands known status
  | reuseStopped item rest checkpoint stands known status
  | finish waiting stands admitted
  | begin waiting session active stands admitted
  | suppressDuplicate session call calls stands pending
  | suppressTool session call calls stands pending
  | recordTool session call calls key stands pending affordable
  | ask session stands pending available open_
  | askFinal session reason stands pending available
  | dispatch turn stands | receive turn answer stands
  | recover turn completion stands first
  | callTools turn completion stands calls open_
  | execute session call key stands | result session call key text stands =>
      simp only [Persisted, stands] at persisted
      exact persisted

theorem Reached.persisted
    {run : PhaseRun Payload} {work : List (WorkItem Payload)} {usage : Usage}
    {checkpoints : Dict String WorkCheckpoint} {state : SchedulerState Payload}
    (reached : Reached run work usage checkpoints state) :
    Persisted run state := by
  refine reached.invariant ?_ (fun _ _ => persisted_steps)
  exact (rfl : checkpoints = checkpoints)

theorem step_raised
    {run : PhaseRun Payload} {reply : Reply} {state : SchedulerState Payload}
    {error : PyError} (stands : state.control = .raised error) :
    step run reply state = none := by
  unfold step
  rw [stands]

end SchedulerState

/-- The parts of a text item, for the runs on which results are tried. -/
def halve (item : WorkItem String) :
    Except PyError (List (WorkItem String)) :=
  let text := item.payload.toList
  if text.length ≤ 1 then .error (.permanent "a single character")
  else
    .ok
      [{ key := item.key ++ "0"
         payload := String.ofList (text.take (text.length / 2))
         parentKey := some item.key },
        { key := item.key ++ "1"
          payload := String.ofList (text.drop (text.length / 2))
          parentKey := some item.key }]

/-- A phase over texts whose answers are summaries. -/
def halvingRun (settings : ReviewSettings) (maxUnits : Nat) : PhaseRun String where
  settings := settings
  phase := .verification
  messages item := [.user item.payload]
  parse content _ := .ok { summary := content }
  split := halve
  maxUnits := maxUnits
  toolCallKey call := .ok (call.name ++ call.rawArguments)
  toolResultFailed _ := false

def twoTexts : List (WorkItem String) :=
  [{ key := "a", payload := "xy" }, { key := "b", payload := "z" }]

end PeReview.Scheduling
