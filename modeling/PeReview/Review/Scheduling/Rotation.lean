import PeReview.Process.Line
import PeReview.Review.Scheduling.Checkpoints

/-!
# The sessions take turns

The queue of a run is a line: a session that does not close goes back to the end, and new
sessions join there.  So between two turns of a session every other one that was queued has
had exactly one, and a turn costs a bounded number of calls.
-/

namespace PeReview.Scheduling

open PeReview.Data PeReview.Process

variable {Payload : Type}

/-- What a run does that costs something: the turn of a session, a request to the model and
the execution of a tool. -/
inductive Activity
  | turn (key : String)
  | request (key : String)
  | tool (key : String)
  deriving DecidableEq, Repr

namespace Activity

def turn? : Activity → Option String
  | .turn key => some key
  | .request _ | .tool _ => none

def isTurn (activity : Activity) : Bool :=
  activity.turn?.isSome

def isRequest : Activity → Bool
  | .request _ => true
  | .turn _ | .tool _ => false

def isTool : Activity → Bool
  | .tool _ => true
  | .turn _ | .request _ => false

end Activity

namespace SchedulerState

def begun (state : SchedulerState Payload) : List Activity :=
  match state.control with
  | .turn session => [.turn session.work.key]
  | .completing turn => [.request turn.session.work.key]
  | .executing session _ _ => [.tool session.work.key]
  | _ => []

def activities (run : PhaseRun Payload) (replies : List Reply)
    (state : SchedulerState Payload) : List Activity :=
  shown (step run) begun replies state

def turns (run : PhaseRun Payload) (replies : List Reply)
    (state : SchedulerState Payload) : List String :=
  (activities run replies state).filterMap Activity.turn?

/-- The session of the turn and the sessions behind it. -/
def line (state : SchedulerState Payload) : Line String where
  inService := (sessionInHand state.control).head?.map fun session => session.work.key
  queue := state.active.map fun session => session.work.key

def HasCheckpoint (state : SchedulerState Payload) (key : String) : Prop :=
  (Dict.get? state.checkpoints key).isSome

section Lines

variable {run : PhaseRun Payload} {source target : SchedulerState Payload}

theorem hasCheckpoint_steps (steps : Steps run source target) {key : String}
    (closed : source.HasCheckpoint key) : target.HasCheckpoint key := by
  unfold HasCheckpoint at closed ⊢
  rcases steps_checkpoints steps with ⟨same, _⟩ | ⟨session, closing, checkpoint, closes⟩
  · rw [same]
    exact closed
  · rw [closes.checkpoints]
    by_cases own : session.work.key = key
    · rw [own, Dict.get?_set_self]
      rfl
    · rw [Dict.get?_set_of_ne _ _ own]
      exact closed

theorem hasCheckpoint_checkpoint {session : Session Payload} {closing : Closing Payload}
    {result : Option ParsedReview} {limitations : List String} :
    (source.checkpoint run session closing result limitations).HasCheckpoint
      session.work.key := by
  unfold HasCheckpoint checkpoint
  rw [Dict.get?_set_self]
  rfl

theorem line_requeue {session : Session Payload} :
    (source.requeue session).line =
      ⟨none, source.line.queue ++ [session.work.key]⟩ := by
  unfold line requeue
  rw [List.map_append]
  rfl

/-- A session that closes leaves the line. -/
theorem moves_checkpoint {state : SchedulerState Payload} {session : Session Payload}
    {closing : Closing Payload} {result : Option ParsedReview} {limitations : List String}
    (stands : source.line = ⟨some session.work.key, state.line.queue⟩) :
    Line.Moves (state.checkpoint run session closing result limitations).HasCheckpoint
      source.line (state.checkpoint run session closing result limitations).line [] := by
  rw [stands]
  exact .leave session.work.key state.line.queue hasCheckpoint_checkpoint

/-- How a step moves the line. -/
theorem moves_steps (steps : Steps run source target)
    (running : ∀ error, target.control ≠ .raised error) :
    Line.Moves target.HasCheckpoint source.line target.line
      (target.begun.filterMap Activity.turn?) := by
  cases steps with
  | raised usage outcome error calls tools => exact absurd rfl (running error)
  | finish waiting stands admitted =>
      obtain ⟨opened, _, sessions⟩ := admit_opened admitted
      have idle : source.active = [] := (List.append_eq_nil_iff.mp sessions.symm).1
      have same : source.line = ⟨none, []⟩ := by
        unfold line
        rw [stands, idle]
        rfl
      rw [same]
      exact .stay _
  | begin waiting session active stands admitted =>
      obtain ⟨opened, _, sessions⟩ := admit_opened admitted
      have same : source.line = ⟨none, source.line.queue⟩ := by
        unfold line
        rw [stands]
        rfl
      rw [same]
      apply Line.Moves.serve source.line.queue
        (opened.map fun entry => (openSession run entry.1 entry.2).work.key)
      have keys := congrArg (List.map fun session => session.work.key) sessions
      rw [List.map_append, List.map_map] at keys
      exact keys.symm
  | suppressDuplicate session call calls stands pending
  | suppressTool session call calls stands pending =>
      have same : source.line = ⟨some session.work.key, source.line.queue⟩ := by
        unfold line
        rw [stands]
        rfl
      rw [same]
      unfold appendToolResult
      rw [line_requeue]
      exact .back _ _
  | callTools turn completion stands calls open_ =>
      have same : source.line = ⟨some turn.session.work.key, source.line.queue⟩ := by
        unfold line
        rw [stands]
        rfl
      rw [same, line_requeue]
      exact .back _ _
  | keepResult session call key text stands =>
      have same : source.line = ⟨some session.work.key, source.line.queue⟩ := by
        unfold line
        rw [stands]
        rfl
      rw [same]
      unfold keepToolResult appendToolResult
      dsimp only
      split <;> rw [line_requeue] <;> exact .back _ _
  | stop session stands pending exhausted =>
      apply moves_checkpoint
      unfold line
      rw [stands]
      rfl
  | splitRejected turn error children stands splits
  | splitTruncated turn completion children stands splits
  | splitUnparsed turn completion children stands splits
  | done turn completion result stands parsed =>
      apply moves_checkpoint
      unfold line
      rw [stands]
      rfl
  | saved session closing stands =>
      have same : (source.saveDone run session closing).line = source.line := by
        unfold line saveDone
        rw [stands]
        cases closing <;> rfl
      rw [same]
      cases closing <;> exact .stay _
  | expanded stands | wait item rest stands unknown
  | reuseSplit item rest checkpoint children stands known status splits
  | reuseDone item rest checkpoint stands known status
  | reuseStopped item rest checkpoint stands known status
  | recordTool session call calls key stands pending affordable
  | ask session stands pending available open_
  | askFinal session reason stands pending available
  | dispatch turn stands | receive turn answer stands
  | recover turn completion stands first
  | execute session call key stands | result session call key text stands =>
      have same : source.line = ⟨(sessionInHand source.control).head?.map
          fun session => session.work.key, source.line.queue⟩ := rfl
      rw [same, stands]
      exact .stay _

end Lines

/-! ## What a turn costs -/

/-- The requests the current turn may have sent. -/
def requested : Control Payload → Nat
  | .turn _ => 0
  | .recordingRequest turn => if turn.recovery then 1 else 0
  | .completing turn | .recordingAnswer turn _ => if turn.recovery then 2 else 1
  | _ => 2

/-- The tools the current turn may have executed. -/
def tooled : Control Payload → Nat
  | .turn _ | .recordingTool _ _ _ => 0
  | _ => 1

structure Frugal (before : List Activity) (state : SchedulerState Payload) : Prop where
  requests : before.countP Activity.isRequest ≤
    2 * before.countP Activity.isTurn + requested state.control
  tools : before.countP Activity.isTool ≤
    before.countP Activity.isTurn + tooled state.control

section Costs

variable {run : PhaseRun Payload} {source target : SchedulerState Payload}
  {before : List Activity}

theorem requested_le (control : Control Payload) : requested control ≤ 2 := by
  unfold requested
  split <;> first | omega | (split <;> omega)

theorem tooled_le (control : Control Payload) : tooled control ≤ 1 := by
  unfold tooled
  split <;> omega

/-- A step that begins nothing. -/
theorem Frugal.quiet (frugal : Frugal before source) (nothing : target.begun = [])
    (requests : requested source.control ≤ requested target.control)
    (tools : tooled source.control ≤ tooled target.control) :
    Frugal (before ++ target.begun) target := by
  obtain ⟨byRequests, byTools⟩ := frugal
  rw [nothing, List.append_nil]
  constructor <;> omega

/-- A step after which a turn may have spent all it can. -/
theorem Frugal.spent (frugal : Frugal before source) (nothing : target.begun = [])
    (requests : requested target.control = 2) (tools : tooled target.control = 1) :
    Frugal (before ++ target.begun) target := by
  apply frugal.quiet nothing
  · rw [requests]
    exact requested_le source.control
  · rw [tools]
    exact tooled_le source.control

/-- A step that begins something. -/
theorem Frugal.begin (frugal : Frugal before source) {activity : Activity}
    (begins : target.begun = [activity])
    (requests : requested source.control + (if activity.isRequest then 1 else 0) ≤
      2 * (if activity.isTurn then 1 else 0) + requested target.control)
    (tools : tooled source.control + (if activity.isTool then 1 else 0) ≤
      (if activity.isTurn then 1 else 0) + tooled target.control) :
    Frugal (before ++ target.begun) target := by
  obtain ⟨byRequests, byTools⟩ := frugal
  rw [begins]
  constructor <;> rw [List.countP_append, List.countP_append, List.countP_singleton,
    List.countP_singleton] <;> omega

theorem frugal_steps (frugal : Frugal before source) (steps : Steps run source target) :
    Frugal (before ++ target.begun) target := by
  cases steps with
  | begin waiting session active stands admitted =>
      apply frugal.begin rfl
      · exact requested_le source.control
      · exact tooled_le source.control
  | dispatch turn stands =>
      apply frugal.begin rfl
      · rw [stands]
        unfold requested SchedulerState.dispatch
        dsimp only
        split <;> exact Nat.le_of_ble_eq_true rfl
      · rw [stands]
        exact Nat.le_of_ble_eq_true rfl
  | execute session call key stands =>
      apply frugal.begin rfl
      · rw [stands]
        exact Nat.le_of_ble_eq_true rfl
      · rw [stands]
        exact Nat.le_of_ble_eq_true rfl
  | ask session stands pending available open_
  | askFinal session reason stands pending available =>
      apply frugal.quiet rfl
      · rw [stands]
        exact Nat.le_of_ble_eq_true rfl
      · rw [stands]
        exact Nat.le_of_ble_eq_true rfl
  | receive turn answer stands =>
      apply frugal.quiet rfl
      · rw [stands]
        exact Nat.le_refl _
      · rw [stands]
        exact Nat.le_refl _
  | recover turn completion stands first =>
      apply frugal.quiet rfl
      · rw [stands]
        unfold requested
        dsimp only
        rw [first]
        exact Nat.le_of_ble_eq_true rfl
      · rw [stands]
        exact Nat.le_refl _
  | recordTool session call calls key stands pending affordable =>
      apply frugal.quiet rfl
      · rw [stands]
        exact Nat.zero_le _
      · rw [stands]
        exact Nat.zero_le _
  | saved session closing stands =>
      cases closing <;> exact frugal.spent rfl rfl rfl
  | keepResult session call key text stands =>
      unfold keepToolResult appendToolResult
      dsimp only
      split <;> exact frugal.spent rfl rfl rfl
  | _ => exact frugal.spent rfl rfl rfl

end Costs

/-! ## Turns -/

/-- A session in service when a run begins, until it is closed or has another turn. -/
def Rotated (key : String) (queue : List String) (before : List Activity)
    (state : SchedulerState Payload) : Prop :=
  (Line.InTurn key queue (state.HasCheckpoint key) (before.filterMap Activity.turn?)
      state.line ∨
    (∃ error, state.control = .raised error) ∧
      Agree (before.filterMap Activity.turn?) queue ∧
      (¬state.HasCheckpoint key →
        Agree (before.filterMap Activity.turn?) (queue ++ [key]))) ∧
    Frugal before state

theorem rotated_steps {run : PhaseRun Payload} {source target : SchedulerState Payload}
    {key : String} {queue : List String} {before : List Activity}
    (rotated : Rotated key queue before source)
    (running : ∀ error, source.control ≠ .raised error)
    (steps : Steps run source target) :
    Rotated key queue (before ++ target.begun) target := by
  obtain ⟨inTurn | ⟨⟨error, raised⟩, _⟩, frugal⟩ := rotated
  · refine ⟨?_, frugal_steps frugal steps⟩
    have later := inTurn.mono (hasCheckpoint_steps steps)
    by_cases raises : ∃ error, target.control = .raised error
    · right
      obtain ⟨error, raised⟩ := raises
      have nothing : target.begun = [] := by
        unfold begun
        rw [raised]
      rw [nothing, List.append_nil]
      exact ⟨⟨error, raised⟩, later.agree, later.agree_of_stays⟩
    · left
      rw [List.filterMap_append]
      apply later.moves (moves_steps steps _)
      intro error raised
      exact raises ⟨error, raised⟩
  · exact absurd raised (running error)

/-- Whoever has a turn: those queued behind it have their turns next, in their order and once
each, whatever the model and the tools answer; then it has another one, unless it has been
closed.  A turn sends at most two requests and executes at most one tool. -/
theorem round_robin_turns {run : PhaseRun Payload} {source target : SchedulerState Payload}
    {session : Session Payload} {replies : List Reply}
    (stands : source.control = .turn session)
    (ran : Process.run (step run) replies source = some target) :
    Agree (turns run replies source)
        (source.active.map fun other => other.work.key) ∧
      (Dict.get? target.checkpoints session.work.key = none →
        Agree (turns run replies source)
          ((source.active.map fun other => other.work.key) ++ [session.work.key])) ∧
      (activities run replies source).countP Activity.isRequest ≤
          2 * ((turns run replies source).length + 1) ∧
      (activities run replies source).countP Activity.isTool ≤
          (turns run replies source).length + 1 := by
  have begins : Rotated session.work.key (source.active.map fun other => other.work.key) []
      source := by
    refine ⟨Or.inl ?_, Nat.zero_le _, Nat.zero_le _⟩
    have same : source.line =
        ⟨some session.work.key, source.active.map fun other => other.work.key⟩ := by
      unfold line
      rw [stands]
      rfl
    rw [same]
    exact .first
  have rotated : Rotated session.work.key (source.active.map fun other => other.work.key)
      (activities run replies source) target := by
    refine run_accounts ?_ begins ran
    intro reply first second before rotated stepped
    refine rotated_steps rotated ?_ (.of_step stepped)
    intro error raised
    rw [step_raised raised] at stepped
    cases stepped
  obtain ⟨inTurn, frugal⟩ := rotated
  have counted : (turns run replies source).length =
      (activities run replies source).countP Activity.isTurn :=
    List.length_filterMap_eq_countP
  have requests := frugal.requests
  have tools := frugal.tools
  have mostRequests := requested_le target.control
  have mostTools := tooled_le target.control
  refine ⟨?_, ?_, ?_, ?_⟩
  · rcases inTurn with standing | ⟨_, agree, _⟩
    · exact standing.agree
    · exact agree
  · intro unclosed
    have stays : ¬target.HasCheckpoint session.work.key := by
      unfold HasCheckpoint
      rw [unclosed]
      exact Bool.noConfusion
    rcases inTurn with standing | ⟨_, _, agree⟩
    · exact standing.agree_of_stays stays
    · exact agree stays
  · rw [counted]
    omega
  · rw [counted]
    omega

/-- Both texts ask for a tool, so the first one has its second turn after the other one. -/
def bothAskForTools : List Reply :=
  [.proceed, .acknowledged, .completed (.ok { toolCalls := [⟨"t1", "read", "x"⟩] }),
    .acknowledged, .proceed, .proceed, .acknowledged,
    .completed (.ok { toolCalls := [⟨"t2", "read", "y"⟩] }), .acknowledged, .proceed]

theorem round_robin_turns_two_texts :
    ∃ source session target,
      Process.run (step (halvingRun {} 4)) [.proceed, .proceed, .proceed, .proceed]
          (start twoTexts {} []) = some source ∧
        source.control = .turn session ∧
        Process.run (step (halvingRun {} 4)) bothAskForTools source = some target ∧
        (turns (halvingRun {} 4) bothAskForTools source).length = 2 ∧
        Agree (turns (halvingRun {} 4) bothAskForTools source)
          ((source.active.map fun other => other.work.key) ++ [session.work.key]) := by
  obtain ⟨source, opened, session, stands⟩ :
      ∃ source,
        Process.run (step (halvingRun {} 4)) [.proceed, .proceed, .proceed, .proceed]
            (start twoTexts {} []) = some source ∧
          ∃ session, source.control = .turn session :=
    ⟨_, rfl, _, rfl⟩
  have facts : (Process.run (step (halvingRun {} 4)) [.proceed, .proceed, .proceed, .proceed]
      (start twoTexts {} [])).any (fun source =>
        (Process.run (step (halvingRun {} 4)) bothAskForTools source).any (fun target =>
          target.checkpoints.isEmpty) &&
        (turns (halvingRun {} 4) bothAskForTools source).length == 2) = true := by
    decide +kernel
  rw [opened, Option.any_some, Bool.and_eq_true, beq_iff_eq] at facts
  obtain ⟨reaches, two⟩ := facts
  obtain ⟨target, ran, empty⟩ := (Option.any_eq_true ..).mp reaches
  have unclosed : Dict.get? target.checkpoints session.work.key = none := by
    rw [List.isEmpty_iff.mp empty]
    rfl
  exact ⟨source, session, target, opened, stands, ran, two,
    (round_robin_turns stands ran).2.1 unclosed⟩

end SchedulerState

end PeReview.Scheduling
