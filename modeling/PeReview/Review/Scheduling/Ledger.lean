import PeReview.Review.Scheduling.Steps

/-!
# The usage ledger

Charges are kept in the budget, in the sessions and in the checkpoints.  Whatever
charges the budget charges the session of the turn too, so the budget is the usage
the run started from and that of the sessions it has opened.
-/

namespace PeReview.Scheduling

open PeReview.Data PeReview.Process

variable {Payload : Type}

theorem tokens_add (rest usage : Usage) (inputTokens outputTokens : Option Nat) :
    (rest + usage).tokens inputTokens outputTokens =
      rest + usage.tokens inputTokens outputTokens := by
  ext <;> simp [Usage.tokens, Nat.add_assoc]

theorem chargeCall_add (rest usage : Usage) :
    (rest + usage).chargeCall = rest + usage.chargeCall := by
  ext <;> simp [Usage.chargeCall, Nat.add_assoc]

theorem chargeTool_add (rest usage : Usage) :
    (rest + usage).chargeTool = rest + usage.chargeTool := by
  ext <;> simp [Usage.chargeTool, Nat.add_assoc]

/-- A refund takes back what the answer was charged with, so it is never cut off. -/
theorem refund_tokens (usage : Usage) (inputTokens outputTokens : Option Nat) :
    (usage.tokens inputTokens outputTokens).refund inputTokens outputTokens =
      { usage with llmCalls := usage.llmCalls - 1 } := by
  simp [Usage.tokens, Usage.refund]

theorem refund_add {usage : Usage} (rest : Usage)
    (inputTokens outputTokens : Option Nat) (charged : 1 ≤ usage.llmCalls) :
    ((rest + usage).tokens inputTokens outputTokens).refund inputTokens
        outputTokens =
      rest + (usage.tokens inputTokens outputTokens).refund inputTokens
        outputTokens := by
  rw [refund_tokens, refund_tokens]
  ext
  · simp only [Usage.llmCalls_add]
    omega
  · rfl
  · rfl
  · rfl

def usageOf (sessions : List (Session Payload)) : Usage :=
  (sessions.map Session.usage).sum

@[simp]
theorem usageOf_nil : usageOf ([] : List (Session Payload)) = 0 :=
  rfl

@[simp]
theorem usageOf_cons
    (session : Session Payload) (sessions : List (Session Payload)) :
    usageOf (session :: sessions) = session.usage + usageOf sessions :=
  List.sum_cons

@[simp]
theorem usageOf_append (first second : List (Session Payload)) :
    usageOf (first ++ second) = usageOf first + usageOf second := by
  simp [usageOf]

/-- A session that has just been opened has used nothing. -/
theorem usageOf_opened (run : PhaseRun Payload)
    (opened : List (WorkItem Payload × Nat)) :
    usageOf
        (opened.map fun entry =>
          SchedulerState.openSession run entry.1 entry.2) = 0 := by
  induction opened with
  | nil =>
      rfl
  | cons entry rest inductionHypothesis =>
      rw [List.map_cons, usageOf_cons, inductionHypothesis]
      rfl

namespace SchedulerState

/-- The session the run works on; one that is being saved has been closed. -/
def sessionInHand : Control Payload → List (Session Payload)
  | .turn session
  | .recordingTool session _ _
  | .executing session _ _
  | .recordingResult session _ _ _ => [session]
  | .recordingRequest turn
  | .completing turn
  | .recordingAnswer turn _ => [turn.session]
  | .expanding _ | .scheduling | .saving _ _ | .returned | .raised _ => []

/-- The session a state has just closed, and how. -/
def closed (state : SchedulerState Payload) :
    List (Session Payload × Closing Payload) :=
  match state.control with
  | .saving session closing => [(session, closing)]
  | _ => []

def closings (run : PhaseRun Payload) (replies : List Reply)
    (state : SchedulerState Payload) : List (Session Payload × Closing Payload) :=
  shown (step run) closed replies state

/-- A request that may be refunded has been charged to its session. -/
def Charged (control : Control Payload) : Prop :=
  match control with
  | .completing turn | .recordingAnswer turn _ => 1 ≤ turn.session.usage.llmCalls
  | _ => True

/-- The budget is the base, the sessions closed so far and the live ones. -/
def Balanced (base : Usage) (before : List (Session Payload × Closing Payload))
    (state : SchedulerState Payload) : Prop :=
  (∃ error, state.control = .raised error) ∨
    state.usage =
        base + usageOf (before.map Prod.fst) + usageOf state.active +
          usageOf (sessionInHand state.control) ∧
      Charged state.control

section Steps

variable {run : PhaseRun Payload} {base : Usage}
  {before : List (Session Payload × Closing Payload)}
  {state : SchedulerState Payload} {session : Session Payload}

theorem balanced_requeue
    (balance :
      state.usage =
        base + usageOf (before.map Prod.fst) + usageOf state.active +
          session.usage) :
    Balanced base (before ++ (state.requeue session).closed)
      (state.requeue session) := by
  refine .inr ⟨?_, True.intro⟩
  simp only [requeue, closed, sessionInHand, List.append_nil, usageOf_append,
    usageOf_cons, usageOf_nil, add_zero, ← add_assoc]
  exact balance

theorem balanced_checkpoint
    {closing : Closing Payload} {result : Option ParsedReview}
    {limitations : List String}
    (balance :
      state.usage =
        base + usageOf (before.map Prod.fst) + usageOf state.active +
          session.usage) :
    Balanced base
      (before ++
        (state.checkpoint run session closing result limitations).closed)
      (state.checkpoint run session closing result limitations) := by
  refine .inr ⟨?_, True.intro⟩
  simp only [checkpoint, closed, sessionInHand, List.map_append, List.map_cons,
    List.map_nil, usageOf_append, usageOf_cons, usageOf_nil, add_zero]
  rw [balance]
  ac_rfl

theorem balanced_steps {source target : SchedulerState Payload}
    (balanced : Balanced base before source)
    (running : ∀ error, source.control ≠ .raised error)
    (steps : Steps run source target) :
    Balanced base (before ++ target.closed) target := by
  obtain ⟨balance, charged⟩ :=
    balanced.resolve_left fun ⟨error, stands⟩ => running error stands
  cases steps with
  | raised usage outcome error calls tools =>
      exact .inl ⟨error, rfl⟩
  | expanded stands | wait item rest stands unknown
  | reuseSplit item rest checkpoint children stands known status splits
  | reuseDone item rest checkpoint stands known status
  | reuseStopped item rest checkpoint stands known status =>
      simp only [stands, sessionInHand] at balance
      refine .inr ⟨?_, True.intro⟩
      simpa only [closed, sessionInHand, List.append_nil] using balance
  | finish waiting stands admitted =>
      obtain ⟨opened, _, sessions⟩ := admit_opened admitted
      have idle : source.active = [] := (List.append_eq_nil_iff.mp sessions.symm).1
      simp only [stands, sessionInHand, idle] at balance
      refine .inr ⟨?_, True.intro⟩
      simpa only [SchedulerState.finish, closed, sessionInHand,
        List.append_nil] using balance
  | begin waiting session active stands admitted =>
      obtain ⟨opened, _, sessions⟩ := admit_opened admitted
      have nothing : usageOf (session :: active) = usageOf source.active := by
        rw [sessions, usageOf_append, usageOf_opened, add_zero]
      simp only [stands, sessionInHand, usageOf_nil, add_zero] at balance
      refine .inr ⟨?_, True.intro⟩
      simp only [closed, sessionInHand, List.append_nil, usageOf_cons, usageOf_nil,
        add_zero]
      rw [balance, ← nothing, usageOf_cons]
      ac_rfl
  | suppressDuplicate session call calls stands pending
  | suppressTool session call calls stands pending =>
      simp only [stands, sessionInHand, usageOf_cons, usageOf_nil, add_zero]
        at balance
      exact balanced_requeue balance
  | keepResult session call key text stands =>
      simp only [stands, sessionInHand, usageOf_cons, usageOf_nil, add_zero]
        at balance
      unfold keepToolResult
      dsimp only
      split
      · exact balanced_requeue balance
      · exact balanced_requeue balance
  | callTools turn completion stands calls open_ =>
      simp only [stands, sessionInHand, usageOf_cons, usageOf_nil, add_zero]
        at balance
      refine balanced_requeue ?_
      simp only [billed, Session.billed, balance]
      exact tokens_add _ _ _ _
  | recordTool session call calls key stands pending affordable
  | ask session stands pending available open_
  | askFinal session reason stands pending available
  | result session call key text stands =>
      simp only [stands, sessionInHand, usageOf_cons, usageOf_nil, add_zero]
        at balance
      refine .inr ⟨?_, True.intro⟩
      simpa only [closed, sessionInHand, List.append_nil, usageOf_cons,
        usageOf_nil, add_zero] using balance
  | execute session call key stands =>
      simp only [stands, sessionInHand, usageOf_cons, usageOf_nil, add_zero]
        at balance
      refine .inr ⟨?_, True.intro⟩
      simp only [executeTool, closed, sessionInHand, List.append_nil, usageOf_cons,
        usageOf_nil, add_zero, balance]
      exact chargeTool_add _ _
  | dispatch turn stands =>
      simp only [stands, sessionInHand, usageOf_cons, usageOf_nil, add_zero]
        at balance
      refine .inr ⟨?_, Nat.le_add_left 1 _⟩
      simp only [SchedulerState.dispatch, closed, sessionInHand, List.append_nil,
        usageOf_cons, usageOf_nil, add_zero, balance]
      exact chargeCall_add _ _
  | receive turn answer stands =>
      simp only [stands, sessionInHand, Charged] at balance charged
      refine .inr ⟨?_, charged⟩
      simpa only [closed, sessionInHand, List.append_nil] using balance
  | splitRejected turn error children stands splits
  | splitUnparsed turn completion children stands splits
  | done turn completion result stands parsed =>
      simp only [stands, sessionInHand, usageOf_cons, usageOf_nil, add_zero]
        at balance
      refine balanced_checkpoint ?_
      simp only [billed, Session.billed, balance]
      exact tokens_add _ _ _ _
  | splitTruncated turn completion children stands splits =>
      simp only [stands, sessionInHand, usageOf_cons, usageOf_nil, add_zero,
        Charged] at balance charged
      refine balanced_checkpoint ?_
      simp only [refunded, Session.refunded, balance]
      exact refund_add _ _ _ charged
  | recover turn completion stands first =>
      simp only [stands, sessionInHand, usageOf_cons, usageOf_nil, add_zero,
        Charged] at balance charged
      refine .inr ⟨?_, True.intro⟩
      simp only [refunded, Session.refunded, closed, sessionInHand,
        List.append_nil, usageOf_cons, usageOf_nil, add_zero, balance]
      exact refund_add _ _ _ charged
  | stop session stands pending exhausted =>
      simp only [stands, sessionInHand, usageOf_cons, usageOf_nil, add_zero]
        at balance
      exact balanced_checkpoint balance
  | saved session closing stands =>
      simp only [stands, sessionInHand, usageOf_nil, add_zero] at balance
      cases closing with
      | done | stopped | split children =>
          refine .inr ⟨?_, True.intro⟩
          simpa only [saveDone, closed, sessionInHand, List.append_nil,
            usageOf_nil, add_zero] using balance

end Steps

def settledSessions (closings : List (Session Payload × Closing Payload)) :
    List (Session Payload) :=
  (closings.filter fun entry => entry.2.status ≠ .split).map Prod.fst

def splitSessions (closings : List (Session Payload × Closing Payload)) :
    List (Session Payload) :=
  (closings.filter fun entry => entry.2.status = .split).map Prod.fst

theorem usageOf_closings (closings : List (Session Payload × Closing Payload)) :
    usageOf (closings.map Prod.fst) =
      usageOf (settledSessions closings) + usageOf (splitSessions closings) := by
  induction closings with
  | nil =>
      rfl
  | cons entry rest inductionHypothesis =>
      rw [List.map_cons, usageOf_cons, inductionHypothesis]
      by_cases divided : entry.2.status = .split
      · simp only [settledSessions, splitSessions, List.filter_cons, divided,
          ne_eq, not_true_eq_false, decide_false, decide_true, if_true,
          Bool.false_eq_true, if_false, List.map_cons, usageOf_cons]
        ac_rfl
      · simp only [settledSessions, splitSessions, List.filter_cons, divided,
          ne_eq, not_false_eq_true, decide_false, decide_true, if_true,
          Bool.false_eq_true, if_false, List.map_cons, usageOf_cons]
        ac_rfl

/-- At every moment of a run the budget is the usage it started from, that of the
sessions it has closed, and that of the live ones. -/
theorem balanced_run
    {run : PhaseRun Payload} {work : List (WorkItem Payload)} {base : Usage}
    {checkpoints : Dict String WorkCheckpoint} {replies : List Reply}
    {state : SchedulerState Payload}
    (ran :
      Process.run (step run) replies (start work base checkpoints) =
        some state) :
    Balanced base (closings run replies (start work base checkpoints)) state := by
  have begins : Balanced base [] (start work base checkpoints :
      SchedulerState Payload) := by
    refine .inr ⟨?_, True.intro⟩
    simp [start, sessionInHand]
  refine run_accounts ?_ begins ran
  intro reply source target before balanced stepped
  refine balanced_steps balanced ?_ (.of_step stepped)
  intro error stands
  rw [step_raised stands] at stepped
  cases stepped

end SchedulerState

end PeReview.Scheduling
