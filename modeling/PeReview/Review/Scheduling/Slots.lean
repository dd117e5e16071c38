import PeReview.Review.Scheduling.Steps

/-!
# A final slot for every live session

At the start of every turn the call slots kept for the active sessions are covered
by the calls that remain in the phase.  So a session that has been admitted is never
stopped for lack of budget.
-/

namespace PeReview.Scheduling

open PeReview.Data PeReview.Process

variable {Payload : Type}

/-- The calls a request may need, itself included: a final answer ends its session,
another one needs a final answer after it. -/
def LlmTurn.need (turn : LlmTurn Payload) : Nat :=
  if turn.final then 1 else 2

theorem LlmTurn.need_pos (turn : LlmTurn Payload) : 1 ≤ turn.need := by
  unfold need
  split <;> omega

def PhaseRun.callCap (run : PhaseRun Payload) : Nat :=
  run.settings.maxLlmCallsPerJob -
    run.settings.reserve run.phase run.settings.maxLlmCallsPerJob

theorem remainingCalls_eq (run : PhaseRun Payload) (usage : Usage) :
    run.settings.remainingCalls run.phase usage = run.callCap - usage.llmCalls :=
  rfl

@[simp]
theorem protectedSlots_nil : protectedSlots ([] : List (Session Payload)) = 0 :=
  rfl

@[simp]
theorem protectedSlots_cons
    (session : Session Payload) (sessions : List (Session Payload)) :
    protectedSlots (session :: sessions) =
      session.slots + protectedSlots sessions := by
  simp [protectedSlots]

@[simp]
theorem protectedSlots_append (first second : List (Session Payload)) :
    protectedSlots (first ++ second) =
      protectedSlots first + protectedSlots second := by
  simp [protectedSlots]

@[simp]
theorem slots_openSession
    (run : PhaseRun Payload) (item : WorkItem Payload) (slots : Nat) :
    (SchedulerState.openSession run item slots).slots = slots :=
  rfl

theorem slots_of_called {session : Session Payload} (called : 1 ≤ session.calls) :
    session.slots = 1 := by
  have started : session.calls ≠ 0 := Nat.one_le_iff_ne_zero.mp called
  simp [Session.slots, started]

namespace SchedulerState

/-- What the place where the run stands keeps of the remaining calls. -/
def Covered (run : PhaseRun Payload) (state : SchedulerState Payload) : Prop :=
  let remaining := run.callCap - state.usage.llmCalls
  let kept := protectedSlots state.active
  match state.control with
  | .turn session
  | .recordingTool session _ _
  | .executing session _ _
  | .recordingResult session _ _ _ => session.slots + kept ≤ remaining
  | .recordingRequest turn => turn.need + kept ≤ remaining
  | .completing turn
  | .recordingAnswer turn _ =>
      -- The request has been charged and may still be refunded.
      1 ≤ state.usage.llmCalls ∧
        turn.need + kept + state.usage.llmCalls ≤ run.callCap + 1
  | .raised _ => True
  | .expanding _ | .scheduling | .saving _ _ | .returned => kept ≤ remaining

def inHand : Control Payload → List (Session Payload)
  | .turn session
  | .recordingTool session _ _
  | .executing session _ _
  | .recordingResult session _ _ _
  | .saving session _ => [session]
  | .recordingRequest turn
  | .completing turn
  | .recordingAnswer turn _ => [turn.session]
  | .expanding _ | .scheduling | .returned | .raised _ => []

/-- A request in flight belongs to a session that has made a call. -/
def Called : Control Payload → Prop
  | .completing turn | .recordingAnswer turn _ => 1 ≤ turn.session.calls
  | _ => True

def Unstopped : Control Payload → Prop
  | .saving _ closing => closing.status ≠ .stopped
  | _ => True

structure Reserved (run : PhaseRun Payload) (state : SchedulerState Payload) :
    Prop where
  covered : state.Covered run
  /-- Every live session has a slot of its own. -/
  slotted : ∀ session ∈ inHand state.control ++ state.active, 1 ≤ session.slots
  called : Called state.control
  unstopped : Unstopped state.control

theorem admit_reserved
    {run : PhaseRun Payload} {usage : Usage} {completed : Nat}
    {waiting left : List (WorkItem Payload)}
    {active sessions : List (Session Payload)}
    (admitted : admitWaiting run usage completed waiting active = (left, sessions))
    (covered : protectedSlots active ≤ run.callCap - usage.llmCalls)
    (slotted : ∀ session ∈ active, 1 ≤ session.slots) :
    protectedSlots sessions ≤ run.callCap - usage.llmCalls ∧
      ∀ session ∈ sessions, 1 ≤ session.slots := by
  induction waiting generalizing active with
  | nil =>
      cases admitted
      exact ⟨covered, slotted⟩
  | cons item rest inductionHypothesis =>
      have atLeastOne : 1 ≤ minimumSlots run usage := by
        unfold minimumSlots
        split <;> omega
      have opened : ∀ slots, 1 ≤ slots →
          slots ≤ run.callCap - usage.llmCalls - protectedSlots active →
          protectedSlots (active ++ [openSession run item slots]) ≤
              run.callCap - usage.llmCalls ∧
            ∀ session ∈ active ++ [openSession run item slots],
              1 ≤ session.slots := by
        intro slots enough affordable
        constructor
        · simp only [protectedSlots_append, protectedSlots_cons,
            protectedSlots_nil, slots_openSession]
          omega
        · intro session member
          rcases List.mem_append.mp member with old | new
          · exact slotted session old
          · rw [List.mem_singleton.mp new]
            exact enough
      unfold admitWaiting at admitted
      split at admitted
      · dsimp only at admitted
        split at admitted
        · rename_i short
          split at admitted
          · cases admitted
            exact ⟨covered, slotted⟩
          · rename_i some_
            cases admitted
            rw [remainingCalls_eq] at short some_ ⊢
            exact opened _ (by omega) (by omega)
        · rename_i enough
          rw [remainingCalls_eq] at enough admitted
          obtain ⟨coveredNow, slottedNow⟩ :=
            opened
              (min (minimumSlots run usage)
                (run.callCap - usage.llmCalls - protectedSlots active))
              (by omega) (by omega)
          exact inductionHypothesis admitted coveredNow slottedNow
      · cases admitted
        exact ⟨covered, slotted⟩

theorem reserved_start
    (run : PhaseRun Payload) (work : List (WorkItem Payload)) (usage : Usage)
    (checkpoints : Dict String WorkCheckpoint) :
    Reserved run (start work usage checkpoints) where
  covered := Nat.zero_le _
  slotted := by
    intro session member
    cases member
  called := True.intro
  unstopped := True.intro

/-- Putting a session back leaves its slots as they are. -/
theorem reserved_requeue
    {run : PhaseRun Payload} {state : SchedulerState Payload}
    {session : Session Payload}
    (covered :
      session.slots + protectedSlots state.active ≤
        run.callCap - state.usage.llmCalls)
    (slotted : ∀ other ∈ state.active, 1 ≤ other.slots)
    (own : 1 ≤ session.slots) :
    Reserved run (state.requeue session) where
  covered := by
    simp only [Covered, requeue, protectedSlots_append, protectedSlots_cons,
      protectedSlots_nil]
    omega
  slotted := by
    intro other member
    have queued : other ∈ state.active ++ [session] := member
    rcases List.mem_append.mp queued with old | new
    · exact slotted other old
    · rw [List.mem_singleton.mp new]
      exact own
  called := True.intro
  unstopped := True.intro

theorem reserved_appendToolResult
    {run : PhaseRun Payload} {state : SchedulerState Payload}
    {session : Session Payload} {call : ToolCall} {text : String}
    (covered :
      session.slots + protectedSlots state.active ≤
        run.callCap - state.usage.llmCalls)
    (slotted : 1 ≤ session.slots ∧ ∀ other ∈ state.active, 1 ≤ other.slots) :
    Reserved run (state.appendToolResult session call text) :=
  reserved_requeue covered slotted.2 slotted.1

/-- Closing a session gives its slots back. -/
theorem reserved_checkpoint
    {run : PhaseRun Payload} {state : SchedulerState Payload}
    {session : Session Payload} {closing : Closing Payload}
    {result : Option ParsedReview} {limitations : List String}
    (covered :
      protectedSlots state.active ≤ run.callCap - state.usage.llmCalls)
    (slotted : 1 ≤ session.slots ∧ ∀ other ∈ state.active, 1 ≤ other.slots)
    (unstopped : closing.status ≠ .stopped) :
    Reserved run (state.checkpoint run session closing result limitations) where
  covered := covered
  slotted := List.forall_mem_cons.mpr slotted
  called := True.intro
  unstopped := unstopped

theorem reserved_steps
    {run : PhaseRun Payload} {source target : SchedulerState Payload}
    (reserved : Reserved run source) (steps : Steps run source target) :
    Reserved run target := by
  obtain ⟨covered, slotted, called, unstopped⟩ := reserved
  cases steps with
  | expanded stands | wait item rest stands unknown
  | reuseSplit item rest checkpoint children stands known status splits
  | reuseDone item rest checkpoint stands known status
  | reuseStopped item rest checkpoint stands known status =>
      simp only [Covered, inHand, stands] at covered slotted
      exact ⟨covered, slotted, True.intro, True.intro⟩
  | finish waiting stands admitted =>
      refine ⟨Nat.zero_le _, ?_, True.intro, True.intro⟩
      intro session member
      cases member
  | begin waiting session active stands admitted =>
      simp only [Covered, inHand, stands, List.nil_append] at covered slotted
      obtain ⟨coveredNow, slottedNow⟩ := admit_reserved admitted covered slotted
      rw [protectedSlots_cons] at coveredNow
      exact ⟨coveredNow, slottedNow, True.intro, True.intro⟩
  | suppressDuplicate session call calls stands pending
  | suppressTool session call calls stands pending =>
      simp only [Covered, inHand, stands, List.singleton_append,
        List.forall_mem_cons] at covered slotted
      exact reserved_appendToolResult covered slotted
  | keepResult session call key text stands =>
      simp only [Covered, inHand, stands, List.singleton_append,
        List.forall_mem_cons] at covered slotted
      unfold keepToolResult
      dsimp only
      split
      · exact reserved_appendToolResult covered slotted
      · exact reserved_appendToolResult covered slotted
  | recordTool session call calls key stands pending affordable =>
      simp only [Covered, inHand, stands, List.singleton_append,
        List.forall_mem_cons] at covered slotted
      refine ⟨covered, ?_, True.intro, True.intro⟩
      exact List.forall_mem_cons.mpr slotted
  | stop session stands pending exhausted =>
      simp only [Covered, inHand, stands, List.singleton_append,
        List.forall_mem_cons] at covered slotted
      rw [remainingCalls_eq] at exhausted
      omega
  | ask session stands pending available open_ =>
      simp only [Covered, inHand, stands, List.singleton_append,
        List.forall_mem_cons] at covered slotted
      obtain ⟨_, several, _⟩ := finalReason_eq_none open_
      rw [remainingCalls_eq] at available several
      refine ⟨?_, List.forall_mem_cons.mpr slotted, True.intro, True.intro⟩
      simp only [Covered, LlmTurn.need, Bool.false_eq_true, if_false]
      omega
  | askFinal session reason stands pending available =>
      simp only [Covered, inHand, stands, List.singleton_append,
        List.forall_mem_cons] at covered slotted
      rw [remainingCalls_eq] at available
      refine ⟨?_, List.forall_mem_cons.mpr slotted, True.intro, True.intro⟩
      simp only [Covered, LlmTurn.need, if_true]
      omega
  | dispatch turn stands =>
      simp only [Covered, inHand, stands, List.singleton_append,
        List.forall_mem_cons] at covered slotted
      have needs := turn.need_pos
      refine ⟨⟨Nat.le_add_left 1 _, ?_⟩, ?_, Nat.le_add_left 1 _, True.intro⟩
      · change turn.need + protectedSlots source.active +
          (source.usage.llmCalls + 1) ≤ run.callCap + 1
        omega
      · refine List.forall_mem_cons.mpr ⟨?_, slotted.2⟩
        exact (slots_of_called (Nat.le_add_left 1 _)).ge
  | receive turn answer stands =>
      simp only [Covered, Called, inHand, stands] at covered slotted called
      exact ⟨covered, slotted, called, True.intro⟩
  | splitRejected turn error children stands splits
  | splitTruncated turn completion children stands splits
  | splitUnparsed turn completion children stands splits
  | done turn completion result stands parsed =>
      simp only [Covered, inHand, stands, List.singleton_append,
        List.forall_mem_cons] at covered slotted
      have needs := turn.need_pos
      refine reserved_checkpoint ?_ slotted (by simp [Closing.status])
      change protectedSlots source.active ≤ run.callCap - _
      simp only [usage_billed_llmCalls, usage_refunded_llmCalls]
      omega
  | recover turn completion stands first =>
      simp only [Covered, inHand, stands, List.singleton_append,
        List.forall_mem_cons] at covered slotted
      have needs := turn.need_pos
      refine ⟨?_, List.forall_mem_cons.mpr slotted, True.intro, True.intro⟩
      change 1 + protectedSlots source.active ≤
        run.callCap - (source.usage.llmCalls - 1)
      omega
  | callTools turn completion stands calls open_ =>
      simp only [Covered, Called, inHand, stands, List.singleton_append,
        List.forall_mem_cons] at covered slotted called
      have slot : (1 : Nat) = _ := (slots_of_called called).symm
      simp only [LlmTurn.need, open_, Bool.false_eq_true, if_false] at covered
      refine reserved_requeue ?_ slotted.2 slotted.1
      change turn.session.slots + protectedSlots source.active ≤
        run.callCap - source.usage.llmCalls
      omega
  | execute session call key stands | result session call key text stands =>
      simp only [Covered, inHand, stands, List.singleton_append,
        List.forall_mem_cons] at covered slotted
      refine ⟨covered, ?_, True.intro, True.intro⟩
      exact List.forall_mem_cons.mpr slotted
  | saved session closing stands =>
      simp only [Covered, inHand, stands, List.singleton_append,
        List.forall_mem_cons] at covered slotted
      cases closing with
      | done | stopped | split children =>
          exact ⟨covered, slotted.2, True.intro, True.intro⟩
  | raised usage outcome error calls tools =>
      refine ⟨True.intro, ?_, True.intro, True.intro⟩
      intro session member
      exact slotted session (List.mem_append_right _ member)

theorem Reached.reserved
    {run : PhaseRun Payload} {work : List (WorkItem Payload)} {usage : Usage}
    {checkpoints : Dict String WorkCheckpoint} {state : SchedulerState Payload}
    (reached : Reached run work usage checkpoints state) :
    Reserved run state :=
  reached.invariant (reserved_start run work usage checkpoints)
    (fun _ _ => reserved_steps)

/-- The item of a key is still worked on, or its session has been closed other than
by a stop. -/
def Attended (key : String) (state : SchedulerState Payload) : Prop :=
  (∃ item ∈ liveWork state, item.key = key) ∨
    ∃ checkpoint, Dict.get? state.checkpoints key = some checkpoint ∧
      checkpoint.status ≠ .stopped

/-- Moving the live items around. -/
theorem Attended.of_subset
    {key : String} {source target : SchedulerState Payload}
    (attended : Attended key source)
    (live : liveWork source ⊆ liveWork target)
    (same : target.checkpoints = source.checkpoints) :
    Attended key target := by
  unfold Attended
  rw [same]
  refine attended.imp_left ?_
  rintro ⟨item, member, known⟩
  exact ⟨item, live member, known⟩

/-- Closing the session in hand other than by a stop. -/
theorem attended_checkpoint
    {run : PhaseRun Payload} {source state : SchedulerState Payload}
    {key : String} {session : Session Payload} {closing : Closing Payload}
    {result : Option ParsedReview} {limitations : List String}
    (attended : Attended key source)
    (live : liveWork source = session.work :: state.active.map Session.work)
    (same : state.checkpoints = source.checkpoints)
    (unstopped : closing.status ≠ .stopped) :
    Attended key
      (state.checkpoint run session closing result limitations) := by
  by_cases own : session.work.key = key
  · right
    refine ⟨checkpointOf run session closing result limitations, ?_, unstopped⟩
    rw [← own]
    exact Dict.get?_set_self _ _ _
  · rcases attended with ⟨item, member, known⟩ | ⟨checkpoint, known, status⟩
    · left
      rw [live] at member
      rcases List.mem_cons.mp member with inHand | other
      · exact absurd (inHand ▸ known) own
      · exact ⟨item, other, known⟩
    · right
      refine ⟨checkpoint, ?_, status⟩
      rw [← known, ← same]
      exact Dict.get?_set_of_ne _ _ own

theorem attended_steps
    {run : PhaseRun Payload} {key : String}
    {source target : SchedulerState Payload} (attended : Attended key source)
    (unstopped : Unstopped target.control)
    (running : ∀ error, target.control ≠ .raised error)
    (steps : Steps run source target) :
    Attended key target := by
  cases steps with
  | raised usage outcome error calls tools =>
      exact absurd rfl (running error)
  | stop session stands pending exhausted =>
      exact absurd rfl unstopped
  | splitRejected turn error children stands splits
  | splitTruncated turn completion children stands splits
  | splitUnparsed turn completion children stands splits
  | done turn completion result stands parsed =>
      refine attended_checkpoint attended ?_ rfl unstopped
      simp only [liveWork, itemInHand, stands]
      rfl
  | saved session closing stands =>
      refine attended.of_subset ?_ ?_
      · cases closing with
        | done | stopped | split children =>
            simp [liveWork, itemInHand, stands, saveDone]
      · cases closing with
        | done | stopped | split children => rfl
  | finish waiting stands admitted =>
      obtain ⟨opened, _, sessions⟩ := admit_opened admitted
      have idle : source.active = [] := (List.append_eq_nil_iff.mp sessions.symm).1
      refine attended.of_subset ?_ rfl
      simp [liveWork, itemInHand, stands, idle]
  | begin waiting session active stands admitted =>
      obtain ⟨opened, _, sessions⟩ := admit_opened admitted
      refine attended.of_subset ?_ rfl
      have now : liveWork
          ({ source with waiting, active, control := .turn session } :
            SchedulerState Payload) =
          (session :: active).map Session.work :=
        rfl
      rw [now, sessions, List.map_append]
      simp [liveWork, itemInHand, stands]
  | suppressDuplicate session call calls stands pending
  | suppressTool session call calls stands pending =>
      refine attended.of_subset ?_ rfl
      rw [liveWork_appendToolResult]
      simp [liveWork, itemInHand, stands]
  | keepResult session call key text stands =>
      refine attended.of_subset ?_ ?_
      · rw [liveWork_keepToolResult]
        simp [liveWork, itemInHand, stands]
      · unfold keepToolResult
        dsimp only
        split <;> rfl
  | callTools turn completion stands calls open_ =>
      refine attended.of_subset ?_ rfl
      rw [liveWork_requeue]
      simp [liveWork, itemInHand, stands, billed, Session.billed]
  | expanded stands | wait item rest stands unknown
  | reuseSplit item rest checkpoint children stands known status splits
  | reuseDone item rest checkpoint stands known status
  | reuseStopped item rest checkpoint stands known status
  | recordTool session call calls key stands pending affordable
  | ask session stands pending available open_
  | askFinal session reason stands pending available
  | dispatch turn stands | receive turn answer stands
  | recover turn completion stands first
  | execute session call key stands | result session call key text stands =>
      refine attended.of_subset ?_ rfl
      simp [liveWork, itemInHand, stands, SchedulerState.dispatch, executeTool,
        refunded, Session.refunded]

def Idle (state : SchedulerState Payload) : Prop :=
  match state.control with
  | .returned => state.active = []
  | _ => True

theorem idle_steps
    {run : PhaseRun Payload} {source target : SchedulerState Payload}
    (steps : Steps run source target) : Idle target := by
  cases steps with
  | finish waiting stands admitted =>
      exact rfl
  | keepResult session call key text stands =>
      unfold keepToolResult
      dsimp only
      split <;> exact True.intro
  | saved session closing stands =>
      cases closing with
      | done | stopped | split children => exact True.intro
  | _ =>
      exact True.intro

/-- A session in hand is attended, closed or not. -/
theorem attended_of_inHand
    {run : PhaseRun Payload} {state : SchedulerState Payload}
    {session : Session Payload} (reserved : Reserved run state)
    (persisted : Persisted run state)
    (member : session ∈ inHand state.control ++ state.active) :
    Attended session.work.key state := by
  rcases List.mem_append.mp member with own | live
  · cases stands : state.control with
    | saving closed closing =>
        simp only [stands, inHand, List.mem_singleton] at own
        subst own
        simp only [Persisted, stands] at persisted
        obtain ⟨checkpoint, closedBy, checkpoints⟩ := persisted
        have unstopped := reserved.unstopped
        simp only [Unstopped, stands] at unstopped
        refine .inr ⟨checkpoint, ?_, closedBy.status ▸ unstopped⟩
        rw [checkpoints]
        exact Dict.get?_set_self _ _ _
    | turn other | recordingTool other call key | executing other call key
    | recordingResult other call key text | recordingRequest turn
    | completing turn | recordingAnswer turn answer =>
        simp only [stands, inHand, List.mem_singleton] at own
        refine .inl ⟨session.work, ?_, rfl⟩
        simp [liveWork, itemInHand, stands, own]
    | expanding items | scheduling | returned | raised error =>
        simp only [stands, inHand] at own
        cases own
  · refine .inl ⟨session.work, ?_, rfl⟩
    exact List.mem_append_right _ (List.mem_map_of_mem live)

/-- A session in hand has been closed by the time the run returns. -/
theorem closed_at_return
    {run : PhaseRun Payload} {source target : SchedulerState Payload}
    {key : String} {replies : List Reply} (reserved : Reserved run source)
    (attended : Attended key source)
    (ran : Process.run (step run) replies source = some target)
    (idle : Idle target) (returned : target.control = .returned) :
    ∃ checkpoint, Dict.get? target.checkpoints key = some checkpoint ∧
      (checkpoint.status = .done ∨ checkpoint.status = .split) := by
  let kept (state : SchedulerState Payload) : Prop :=
    Reserved run state ∧
      ((∀ error, state.control ≠ .raised error) → Attended key state)
  have along : kept target := by
    have first : kept source := ⟨reserved, fun _ => attended⟩
    refine run_preserves ?_ first ran
    rintro reply - before after ⟨reservedBefore, attendedBefore⟩ stepped
    have steps := Steps.of_step stepped
    have reservedAfter := reserved_steps reservedBefore steps
    refine ⟨reservedAfter, fun running => ?_⟩
    refine attended_steps (attendedBefore ?_) reservedAfter.unstopped running steps
    intro error stands
    rw [step_raised stands] at stepped
    cases stepped
  have running : ∀ error, target.control ≠ .raised error := by
    intro error stands
    rw [returned] at stands
    cases stands
  simp only [Idle, returned] at idle
  rcases along.2 running with ⟨item, member, _⟩ | ⟨checkpoint, known, unstopped⟩
  · simp only [liveWork, itemInHand, returned, idle] at member
    cases member
  · refine ⟨checkpoint, known, ?_⟩
    cases status : checkpoint.status with
    | done => exact .inl rfl
    | split => exact .inr rfl
    | stopped => exact absurd status unstopped

end SchedulerState

open SchedulerState in
/-- At the start of every turn the slots of the active sessions are covered by the
calls that remain, so the session of the turn has a call available, no session is
stopped, and every session that is admitted is closed by the time the run returns. -/
theorem final_slot_reservation
    {run : PhaseRun Payload} {work : List (WorkItem Payload)} {usage : Usage}
    {checkpoints : Dict String WorkCheckpoint} {state : SchedulerState Payload}
    (reached : Reached run work usage checkpoints state) :
    (∀ session, state.control = .turn session →
      protectedSlots (session :: state.active) ≤
          run.settings.remainingCalls run.phase state.usage ∧
        1 ≤ run.settings.remainingCalls run.phase state.usage -
          protectedSlots state.active) ∧
      (∀ session, state.control ≠ .saving session .stopped) ∧
      ∀ session ∈ inHand state.control ++ state.active, ∀ replies target,
        Process.run (step run) replies state = some target →
          target.control = .returned →
            ∃ checkpoint,
              Dict.get? target.checkpoints session.work.key = some checkpoint ∧
                (checkpoint.status = .done ∨ checkpoint.status = .split) := by
  have reserved := reached.reserved
  refine ⟨?_, ?_, ?_⟩
  · intro session stands
    obtain ⟨covered, slotted, _, _⟩ := reserved
    simp only [Covered, inHand, stands, List.singleton_append,
      List.forall_mem_cons] at covered slotted
    rw [protectedSlots_cons, remainingCalls_eq]
    omega
  · intro session stands
    have unstopped := reserved.unstopped
    simp only [Unstopped, stands] at unstopped
    exact unstopped rfl
  · intro session member replies target ran returned
    have attended := attended_of_inHand reserved reached.persisted member
    have idle : Idle target :=
      Reached.invariant True.intro (fun _ _ _ => idle_steps) (reached.extend ran)
    exact closed_at_return reserved attended ran idle returned

open SchedulerState in
/-- The first turn over two texts: the slots of both are covered. -/
theorem final_slot_reservation_two_texts :
    ∃ state session,
      Process.run (step (halvingRun {} 4))
          [.proceed, .proceed, .proceed, .proceed]
          (start twoTexts {} []) = some state ∧
        state.control = .turn session ∧
        protectedSlots (session :: state.active) ≤
          (halvingRun {} 4).settings.remainingCalls .verification state.usage := by
  obtain ⟨state, ran, session, stands⟩ :
      ∃ state,
        Process.run (step (halvingRun {} 4))
            [.proceed, .proceed, .proceed, .proceed]
            (start twoTexts {} []) = some state ∧
          ∃ session, state.control = .turn session :=
    ⟨_, rfl, _, rfl⟩
  have reservation := final_slot_reservation ⟨_, _, rfl, ran⟩
  exact ⟨state, session, ran, stands, (reservation.1 session stands).1⟩

end PeReview.Scheduling
