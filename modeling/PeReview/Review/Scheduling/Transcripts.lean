import Mathlib.Data.List.Monad
import PeReview.Review.Scheduling.Ledger

/-!
# Tool calls and their results in a transcript

A transcript is read from its start with the ids of the calls it still has to answer.
A session owes the ids of its queued calls, and of the one in hand before them, so it
owes none when it is its turn to ask the model.
-/

namespace PeReview.Scheduling

open PeReview.Data PeReview.Process

variable {Payload : Type}

/-- `tools=None if final else self.tools.tool_schemas`: the schemas go with it. -/
def LlmTurn.offersTools (turn : LlmTurn Payload) : Bool :=
  !turn.final

namespace Message

/-- A message of the kinds a transcript is opened with. -/
def isPrompt : Message → Bool
  | system _ | user _ => true
  | assistant _ _ _ _ | tool _ _ => false

/-- The ids of the tool messages at the front. -/
def leadingResults : List Message → List String
  | tool id _ :: rest => id :: leadingResults rest
  | _ => []

/-- Every assistant message is followed, before any other kind of message, by one
tool message for each of its calls, in their order. -/
def WellFormed (transcript : List Message) : Prop :=
  ∀ (before : List Message) (content reasoning reasoningContent : Option String)
    (calls : List ToolCall) (after : List Message),
    transcript =
        before ++ assistant content reasoning reasoningContent calls :: after →
      leadingResults after = calls.map ToolCall.id

/-- The ids owed after a message, unless it is out of turn. -/
def next : List String → Message → Option (List String)
  | [], system _ | [], user _ => some []
  | [], assistant _ _ _ calls => some (calls.map ToolCall.id)
  | id :: ids, tool answered _ => if answered = id then some ids else none
  | _, _ => none

def owed (transcript : List Message) : Option (List String) :=
  transcript.foldlM next []

theorem owed_append {transcript : List Message} {ids : List String}
    (more : List Message) (before : owed transcript = some ids) :
    owed (transcript ++ more) = more.foldlM next ids := by
  unfold owed at before ⊢
  rw [List.foldlM_append, before]
  rfl

theorem foldlM_prompts {prompts : List Message}
    (all : ∀ message ∈ prompts, message.isPrompt = true) :
    prompts.foldlM next [] = some [] := by
  induction prompts with
  | nil =>
      rfl
  | cons message rest inductionHypothesis =>
      rw [List.forall_mem_cons] at all
      have kept : next [] message = some [] := by
        cases message with
        | system content | user content =>
            rfl
        | assistant content reasoning reasoningContent calls | tool id content =>
            cases all.1
      rw [List.foldlM_cons, kept]
      exact inductionHypothesis all.2

theorem owed_prompts {prompts : List Message}
    (all : ∀ message ∈ prompts, message.isPrompt = true) :
    owed prompts = some [] :=
  foldlM_prompts all

/-- The results that come next are those of the ids owed. -/
theorem leadingResults_of_foldlM {messages : List Message} {ids : List String}
    (settled : messages.foldlM next ids = some []) :
    leadingResults messages = ids := by
  induction messages generalizing ids with
  | nil =>
      cases settled
      rfl
  | cons message rest inductionHypothesis =>
      rw [List.foldlM_cons, Option.bind_eq_bind, Option.bind_eq_some_iff] at settled
      obtain ⟨later, accepted, settled⟩ := settled
      cases message with
      | system content | user content
      | assistant content reasoning reasoningContent calls =>
          cases ids with
          | nil =>
              rfl
          | cons id ids =>
              cases accepted
      | tool answered content =>
          cases ids with
          | nil =>
              cases accepted
          | cons id ids =>
              simp only [next, Option.ite_none_right_eq_some,
                Option.some.injEq] at accepted
              obtain ⟨same, rfl⟩ := accepted
              rw [leadingResults, inductionHypothesis settled, same]

/-- A transcript that owes nothing at its end has answered every call in place. -/
theorem wellFormed_of_owed {transcript : List Message}
    (settled : owed transcript = some []) : WellFormed transcript := by
  intro before content reasoning reasoningContent calls after split
  rw [split, owed, List.foldlM_append, Option.bind_eq_bind,
    Option.bind_eq_some_iff] at settled
  obtain ⟨ids, _, settled⟩ := settled
  rw [List.foldlM_cons, Option.bind_eq_bind, Option.bind_eq_some_iff] at settled
  obtain ⟨later, accepted, settled⟩ := settled
  apply leadingResults_of_foldlM
  cases ids with
  | nil =>
      cases accepted
      exact settled
  | cons id ids =>
      cases accepted

end Message

namespace SchedulerState

def requestInFlight : Control Payload → Option (LlmTurn Payload)
  | .completing turn => some turn
  | _ => none

def queuedCalls (state : SchedulerState Payload) : List ToolCall :=
  (sessionInHand state.control ++ state.active).flatMap Session.pendingTools

/-- The transcript of a session owes the ids of its queued calls, after those in
hand. -/
def Owes (session : Session Payload) (inHand : List ToolCall) : Prop :=
  Message.owed session.transcript =
    some ((inHand ++ session.pendingTools).map ToolCall.id)

/-- A request is made once every call is answered. -/
structure Settled (turn : LlmTurn Payload) : Prop where
  pending : turn.session.pendingTools = []
  session : Message.owed turn.session.transcript = some []
  transcript : Message.owed turn.transcript = some []

def OwesControl : Control Payload → Prop
  | .turn session => Owes session []
  | .recordingTool session call _
  | .executing session call _
  | .recordingResult session call _ _ => Owes session [call]
  | .recordingRequest turn
  | .completing turn
  | .recordingAnswer turn _ => Settled turn
  | .expanding _ | .scheduling | .saving _ _ | .returned | .raised _ => True

/-- Every live session owes the results of its queued calls, and no others. -/
structure Owing (state : SchedulerState Payload) : Prop where
  active : ∀ session ∈ state.active, Owes session []
  control : OwesControl state.control

section Sessions

variable {run : PhaseRun Payload} {state : SchedulerState Payload}
  {session : Session Payload}

theorem owes_openSession {item : WorkItem Payload} {slots : Nat}
    (prompts : ∀ message ∈ run.messages item, message.isPrompt = true) :
    Owes (openSession run item slots) [] :=
  Message.owed_prompts prompts

theorem owing_requeue (active : ∀ other ∈ state.active, Owes other [])
    (owes : Owes session []) : Owing (state.requeue session) where
  active := by
    intro other member
    rcases List.mem_append.mp member with old | new
    · exact active other old
    · rw [List.mem_singleton.mp new]
      exact owes
  control := True.intro

/-- The result of the call in hand is the one owed next. -/
theorem owing_appendToolResult {call : ToolCall} {text : String}
    (active : ∀ other ∈ state.active, Owes other [])
    (owes : Owes session [call]) :
    Owing (state.appendToolResult session call text) := by
  apply owing_requeue active
  have next := Message.owed_append [.tool call.id text] owes
  unfold Owes
  dsimp only
  rw [next]
  simp [Message.next]

/-- A request of a session without queued calls, as its transcript stands or with
one more prompt. -/
theorem settled_of_owes {turn : LlmTurn Payload} {more : List Message}
    (owes : Message.owed turn.session.transcript = some [])
    (pending : turn.session.pendingTools = [])
    {transcript : List Message}
    (before : Message.owed transcript = some [])
    (extended : turn.transcript = transcript ++ more)
    (prompts : ∀ message ∈ more, message.isPrompt = true) : Settled turn where
  pending := pending
  session := owes
  transcript := by
    rw [extended, Message.owed_append more before]
    exact Message.foldlM_prompts prompts

end Sessions

theorem owing_steps
    {run : PhaseRun Payload} {source target : SchedulerState Payload}
    (prompts : ∀ item, ∀ message ∈ run.messages item, message.isPrompt = true)
    (owing : Owing source) (steps : Steps run source target) :
    Owing target := by
  obtain ⟨active, control⟩ := owing
  cases steps with
  | expanded stands | wait item rest stands unknown
  | reuseSplit item rest checkpoint children stands known status splits
  | reuseDone item rest checkpoint stands known status
  | reuseStopped item rest checkpoint stands known status
  | stop session stands pending exhausted
  | splitRejected turn error children stands splits
  | splitTruncated turn completion children stands splits
  | splitUnparsed turn completion children stands splits
  | done turn completion result stands parsed
  | raised usage outcome error calls tools =>
      exact ⟨active, True.intro⟩
  | finish waiting stands admitted =>
      exact ⟨fun session member => (nomatch member), True.intro⟩
  | begin waiting session sessions stands admitted =>
      obtain ⟨opened, _, live⟩ := admit_opened admitted
      have all : ∀ other ∈ session :: sessions, Owes other [] := by
        rw [live]
        intro other member
        rcases List.mem_append.mp member with old | new
        · exact active other old
        · obtain ⟨entry, _, rfl⟩ := List.mem_map.mp new
          exact owes_openSession (prompts entry.1)
      rw [List.forall_mem_cons] at all
      exact ⟨all.2, all.1⟩
  | suppressDuplicate session call calls stands pending
  | suppressTool session call calls stands pending =>
      simp only [OwesControl, stands, Owes, pending] at control
      exact owing_appendToolResult active control
  | recordTool session call calls key stands pending affordable =>
      simp only [OwesControl, stands, Owes, pending] at control
      exact ⟨active, control⟩
  | ask session stands pending available open_ =>
      simp only [OwesControl, stands, Owes, pending] at control
      exact ⟨active, pending, control, control⟩
  | askFinal session reason stands pending available =>
      simp only [OwesControl, stands, Owes, pending] at control
      have final : ∀ message ∈ [finalRequest run.phase], message.isPrompt = true := by
        intro message member
        rw [List.mem_singleton.mp member]
        rfl
      exact ⟨active, settled_of_owes control pending control rfl final⟩
  | dispatch turn stands =>
      simp only [OwesControl, stands] at control
      exact ⟨active, control.pending, control.session, control.transcript⟩
  | receive turn answer stands =>
      simp only [OwesControl, stands] at control
      exact ⟨active, control⟩
  | recover turn completion stands first =>
      simp only [OwesControl, stands] at control
      have compact :
          ∀ message ∈ [recoveryRequest run.phase], message.isPrompt = true := by
        intro message member
        rw [List.mem_singleton.mp member]
        rfl
      exact
        ⟨active,
          settled_of_owes control.session control.pending control.transcript rfl
            compact⟩
  | callTools turn completion stands calls open_ =>
      simp only [OwesControl, stands] at control
      have called :=
        Message.owed_append [assistantMessageForToolLoop completion] control.session
      refine owing_requeue active ?_
      unfold Owes
      simp only [control.pending, called, List.nil_append]
      rfl
  | execute session call key stands =>
      simp only [OwesControl, stands] at control
      exact ⟨active, control⟩
  | result session call key text stands =>
      simp only [OwesControl, stands] at control
      exact ⟨active, control⟩
  | keepResult session call key text stands =>
      simp only [OwesControl, stands] at control
      unfold keepToolResult
      dsimp only
      split
      · exact owing_appendToolResult active control
      · exact owing_appendToolResult active control
  | saved session closing stands =>
      cases closing with
      | done | stopped | split children =>
          exact ⟨active, True.intro⟩

theorem Reached.owing
    {run : PhaseRun Payload} {work : List (WorkItem Payload)} {usage : Usage}
    {checkpoints : Dict String WorkCheckpoint} {state : SchedulerState Payload}
    (prompts : ∀ item, ∀ message ∈ run.messages item, message.isPrompt = true)
    (reached : Reached run work usage checkpoints state) : Owing state := by
  apply reached.invariant
  · exact ⟨fun session member => (nomatch member), True.intro⟩
  · intro source target owing
    exact owing_steps prompts owing

section FinalTurns

variable {run : PhaseRun Payload} {state : SchedulerState Payload}

theorem queuedCalls_raise (error : PyError) :
    (state.raise error).queuedCalls = state.active.flatMap Session.pendingTools :=
  rfl

theorem queuedCalls_fail (session : Session Payload) (error : PyError) :
    (state.fail run session error).queuedCalls =
      state.active.flatMap Session.pendingTools := by
  unfold fail
  split
  · split
    · rfl
    · rfl
  · rfl

theorem queuedCalls_splitTruncated (session : Session Payload) :
    (state.splitTruncated run session).queuedCalls =
      state.active.flatMap Session.pendingTools := by
  unfold splitTruncated
  split
  · split
    · exact queuedCalls_fail session _
    · exact queuedCalls_fail session _
  · exact queuedCalls_fail session _
  · rfl

theorem queuedCalls_accept {turn : LlmTurn Payload} (completion : LlmCompletion)
    (final : turn.final = true) :
    (state.accept run turn completion).queuedCalls =
      state.active.flatMap Session.pendingTools := by
  unfold accept
  dsimp only
  rw [if_pos final]
  split
  · exact queuedCalls_fail turn.session _
  · split
    · exact queuedCalls_fail turn.session _
    · rfl

/-- The answer to a request without tools adds no call to a queue. -/
theorem queuedCalls_answered {turn : LlmTurn Payload}
    (answer : Except PyError LlmCompletion) (final : turn.final = true)
    (pending : turn.session.pendingTools = []) :
    (state.answered run turn answer).queuedCalls =
      state.active.flatMap Session.pendingTools := by
  unfold answered
  split
  · exact queuedCalls_fail _ _
  · dsimp only [chargeTokens, refund]
    split
    · split
      · exact queuedCalls_splitTruncated _
      · simp [queuedCalls, sessionInHand, pending]
    · exact queuedCalls_accept _ final

end FinalTurns

/-- Every transcript sent to the model answers each tool call in place, and no call
is queued from the answer to a request that offered no tools. -/
theorem tool_transcripts_well_formed
    {run : PhaseRun Payload} {work : List (WorkItem Payload)} {usage : Usage}
    {checkpoints : Dict String WorkCheckpoint} {state : SchedulerState Payload}
    (prompts : ∀ item, ∀ message ∈ run.messages item, message.isPrompt = true)
    (reached : Reached run work usage checkpoints state) :
    (∀ turn, state.control = .completing turn →
        Message.WellFormed turn.transcript) ∧
      ∀ turn answer reply target, state.control = .recordingAnswer turn answer →
        turn.offersTools = false → step run reply state = some target →
          target.queuedCalls = state.queuedCalls := by
  have control := (Reached.owing prompts reached).control
  constructor
  · intro turn stands
    rw [stands] at control
    exact Message.wellFormed_of_owed control.transcript
  · intro turn answer reply target stands closed stepped
    rw [stands] at control
    have final : turn.final = true := by
      simpa [LlmTurn.offersTools] using closed
    have queued :
        state.queuedCalls = state.active.flatMap Session.pendingTools := by
      simp [queuedCalls, stands, sessionInHand, control.pending]
    rw [queued]
    cases reply with
    | acknowledged =>
        simp only [step, stands, Option.some.injEq] at stepped
        rw [← stepped]
        exact queuedCalls_answered answer final control.pending
    | backendFailed message =>
        simp only [step, stands, Option.some.injEq] at stepped
        rw [← stepped]
        exact queuedCalls_raise _
    | proceed | completed other | executed other =>
        simp [step, stands] at stepped

/-- The answers up to the request after the same call was asked for twice. -/
def sameCallTwice : List Reply :=
  [.proceed, .proceed, .proceed, .proceed, .acknowledged,
    .completed (.ok { toolCalls := [⟨"t1", "read", "x"⟩, ⟨"t2", "read", "x"⟩] }),
    .acknowledged, .proceed, .proceed, .acknowledged, .executed (.text "one"),
    .acknowledged, .proceed, .proceed, .proceed, .proceed, .acknowledged]

/-- The second one of two equal calls is suppressed, and both are answered in the
next request. -/
theorem tool_transcripts_well_formed_duplicate :
    ∃ state turn,
      Process.run (step (halvingRun {} 4)) sameCallTwice
          (start [{ key := "b", payload := "z" }] {} []) = some state ∧
        state.control = .completing turn ∧
        turn.transcript.length = 4 ∧ Message.WellFormed turn.transcript := by
  have length :
      (Process.run (step (halvingRun {} 4)) sameCallTwice
          (start [{ key := "b", payload := "z" }] {} [])).bind
        (fun state => (requestInFlight state.control).map fun turn =>
          turn.transcript.length) = some 4 := by
    decide +kernel
  obtain ⟨state, ran, length⟩ := Option.bind_eq_some_iff.mp length
  obtain ⟨turn, requested, length⟩ := Option.map_eq_some_iff.mp length
  have stands : state.control = .completing turn := by
    generalize state.control = control at requested
    cases control <;> cases requested
    rfl
  have prompts :
      ∀ item, ∀ message ∈ (halvingRun {} 4).messages item,
        message.isPrompt = true := by
    intro item message member
    rw [List.mem_singleton.mp member]
    rfl
  have wellFormed := tool_transcripts_well_formed prompts ⟨_, _, rfl, ran⟩
  exact ⟨state, turn, ran, stands, length, wellFormed.1 turn stands⟩

end SchedulerState

end PeReview.Scheduling
