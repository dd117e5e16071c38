import Mathlib.Algebra.BigOperators.Ring.List
import Mathlib.Data.Prod.Lex
import PeReview.Review.Scheduling.Ledger
import PeReview.Review.Scheduling.Work

/-!
# Every run of the scheduler ends

A refund gives a call back, so the calls that remain are no measure of a run.  What
every step lowers is the load of the work that is left: an item weighs more than its
parts and than a session on it, a session weighs less with every round, and between
two rounds it works off the tool calls it has queued.
-/

namespace PeReview.Scheduling

open PeReview.Data PeReview.Process

variable {Payload Content : Type}

/-- A split function divides the content of an item into several parts, none of them
empty. -/
structure Divides (content : Payload → List Content)
    (split : WorkItem Payload → Except PyError (List (WorkItem Payload))) :
    Prop where
  several : ∀ item children, split item = .ok children → 2 ≤ children.length
  whole : ∀ item children, split item = .ok children →
    (children.flatMap fun child => content child.payload) = content item.payload
  inhabited : ∀ item children, split item = .ok children →
    ∀ child ∈ children, content child.payload ≠ []

def size (content : Payload → List Content) (item : WorkItem Payload) : Nat :=
  (content item.payload).length

/-- How many cuts still fit into an item, twice. -/
def bulk (content : Payload → List Content) (item : WorkItem Payload) : Nat :=
  2 * (size content item - 1)

theorem sum_size (content : Payload → List Content)
    (items : List (WorkItem Payload)) :
    (items.map (size content)).sum =
      (items.flatMap fun item => content item.payload).length := by
  rw [List.length_flatMap]
  rfl

namespace Divides

variable {content : Payload → List Content}
  {split : WorkItem Payload → Except PyError (List (WorkItem Payload))}
  {item : WorkItem Payload} {children : List (WorkItem Payload)}

theorem sum_size (divides : Divides content split)
    (splits : split item = .ok children) :
    (children.map (size content)).sum = size content item := by
  rw [Scheduling.sum_size, divides.whole item children splits]
  rfl

theorem size_pos (divides : Divides content split)
    (splits : split item = .ok children) :
    ∀ child ∈ children, 1 ≤ size content child := by
  intro child member
  exact
    List.length_pos_of_ne_nil (divides.inhabited item children splits child member)

/-- A part is smaller than the whole. -/
theorem smaller (divides : Divides content split)
    (splits : split item = .ok children) :
    ∀ child ∈ children, size content child < size content item := by
  intro child member
  have several := divides.several item children splits
  have positive := divides.size_pos splits
  obtain ⟨before, after, rfl⟩ := List.append_of_mem member
  rw [← divides.sum_size splits, List.map_append, List.map_cons, List.sum_append,
    List.sum_cons]
  have others : 1 ≤ (before.map (size content)).sum + (after.map (size content)).sum := by
    cases before with
    | cons first rest =>
        have some_ := positive first (List.mem_append_left _ List.mem_cons_self)
        rw [List.map_cons, List.sum_cons]
        omega
    | nil =>
        cases after with
        | nil =>
            simp at several
        | cons first rest =>
            have some_ :=
              positive first
                (List.mem_append_right _
                  (List.mem_cons_of_mem child List.mem_cons_self))
            rw [List.map_cons, List.sum_cons]
            omega
  omega

theorem sum_bulk_add_length {items : List (WorkItem Payload)}
    (positive : ∀ child ∈ items, 1 ≤ size content child) :
    (items.map fun child => bulk content child + 1).sum + items.length =
      2 * (items.map (size content)).sum := by
  induction items with
  | nil =>
      rfl
  | cons first rest inductionHypothesis =>
      rw [List.forall_mem_cons] at positive
      have later := inductionHypothesis positive.2
      have some_ := positive.1
      simp only [List.map_cons, List.sum_cons, List.length_cons, bulk] at later ⊢
      omega

/-- The parts have fewer cuts left than the whole. -/
theorem sum_bulk (divides : Divides content split)
    (splits : split item = .ok children) :
    (children.map fun child => bulk content child + 1).sum + children.length =
      bulk content item + 2 := by
  have several := divides.several item children splits
  have positive := divides.size_pos splits
  have total := sum_bulk_add_length positive
  rw [divides.sum_size splits] at total
  obtain ⟨first, rest, rfl⟩ :=
    List.exists_cons_of_length_pos (Nat.lt_of_lt_of_le Nat.two_pos several)
  have less := divides.smaller splits first List.mem_cons_self
  unfold bulk
  unfold bulk at total
  omega

end Divides

/-- What a session weighs at most, beyond the cuts of its item. -/
def PhaseRun.allowance (run : PhaseRun Payload) : Nat :=
  run.settings.maxToolRounds + 2

namespace SchedulerState

section Load

variable (run : PhaseRun Payload) (content : Payload → List Content)

def itemLoad (item : WorkItem Payload) : Nat :=
  (bulk content item + 1) * run.allowance

def sessionLoad (session : Session Payload) : Nat :=
  bulk content session.work * run.allowance +
    (run.settings.maxToolRounds - session.rounds) + 1

def itemsLoad (items : List (WorkItem Payload)) : Nat :=
  (items.map (itemLoad run content)).sum

/-- Items that are still to be looked up weigh one more. -/
def unreadLoad (items : List (WorkItem Payload)) : Nat :=
  (items.map fun item => itemLoad run content item + 1).sum

def sessionsLoad (sessions : List (Session Payload)) : Nat :=
  (sessions.map (sessionLoad run content)).sum

def load (state : SchedulerState Payload) : Nat :=
  unreadLoad run content (unreadItems state.control) +
    itemsLoad run content (partsInHand state.control) +
    itemsLoad run content state.waiting +
    sessionsLoad run content (sessionInHand state.control) +
    sessionsLoad run content state.active

end Load

def queuedTools (sessions : List (Session Payload)) : Nat :=
  (sessions.map fun session => session.pendingTools.length).sum

/-- How far a turn is from its end. -/
def stage : Control Payload → Nat
  | .expanding _ => 20
  | .saving _ _ => 19
  | .recordingTool _ _ _ => 14
  | .executing _ _ _ => 13
  | .recordingResult _ _ _ _ => 12
  | .scheduling => 11
  | .turn _ => 10
  | .recordingRequest turn => if turn.recovery then 6 else 9
  | .completing turn => if turn.recovery then 5 else 8
  | .recordingAnswer turn _ => if turn.recovery then 4 else 7
  | .returned | .raised _ => 0

/-- What every step lowers. -/
def rank (run : PhaseRun Payload) (content : Payload → List Content)
    (state : SchedulerState Payload) : Nat ×ₗ Nat ×ₗ Nat :=
  toLex
    (state.load run content,
      toLex
        (queuedTools (sessionInHand state.control ++ state.active),
          stage state.control))

section Rank

variable {run : PhaseRun Payload} {content : Payload → List Content}
  {source target : SchedulerState Payload}

theorem rank_lt_of_load
    (lighter : target.load run content < source.load run content) :
    rank run content target < rank run content source :=
  Prod.Lex.toLex_lt_toLex.mpr (.inl lighter)

theorem rank_lt_of_tools
    (light : target.load run content ≤ source.load run content)
    (fewer :
      queuedTools (sessionInHand target.control ++ target.active) <
        queuedTools (sessionInHand source.control ++ source.active)) :
    rank run content target < rank run content source := by
  refine Prod.Lex.toLex_lt_toLex.mpr ?_
  rcases Nat.lt_or_eq_of_le light with lighter | same
  · exact .inl lighter
  · exact .inr ⟨same, Prod.Lex.toLex_lt_toLex.mpr (.inl fewer)⟩

theorem rank_lt_of_stage
    (light : target.load run content ≤ source.load run content)
    (few :
      queuedTools (sessionInHand target.control ++ target.active) ≤
        queuedTools (sessionInHand source.control ++ source.active))
    (later : stage target.control < stage source.control) :
    rank run content target < rank run content source := by
  rcases Nat.lt_or_eq_of_le few with fewer | same
  · exact rank_lt_of_tools light fewer
  · refine Prod.Lex.toLex_lt_toLex.mpr ?_
    rcases Nat.lt_or_eq_of_le light with lighter | equal
    · exact .inl lighter
    · exact .inr ⟨equal, Prod.Lex.toLex_lt_toLex.mpr (.inr ⟨same, later⟩)⟩

section Steps

variable {session : Session Payload}

@[simp]
theorem sessionsLoad_nil : sessionsLoad run content [] = 0 :=
  rfl

@[simp]
theorem sessionsLoad_cons (sessions : List (Session Payload)) :
    sessionsLoad run content (session :: sessions) =
      sessionLoad run content session + sessionsLoad run content sessions :=
  List.sum_cons

@[simp]
theorem sessionsLoad_append (first second : List (Session Payload)) :
    sessionsLoad run content (first ++ second) =
      sessionsLoad run content first + sessionsLoad run content second := by
  simp [sessionsLoad]

@[simp]
theorem itemsLoad_nil : itemsLoad run content [] = 0 :=
  rfl

@[simp]
theorem itemsLoad_singleton (item : WorkItem Payload) :
    itemsLoad run content [item] = itemLoad run content item :=
  List.sum_singleton

@[simp]
theorem itemsLoad_append (first second : List (WorkItem Payload)) :
    itemsLoad run content (first ++ second) =
      itemsLoad run content first + itemsLoad run content second := by
  simp [itemsLoad]

@[simp]
theorem unreadLoad_nil : unreadLoad run content [] = 0 :=
  rfl

@[simp]
theorem unreadLoad_cons (item : WorkItem Payload) (items : List (WorkItem Payload)) :
    unreadLoad run content (item :: items) =
      itemLoad run content item + 1 + unreadLoad run content items :=
  List.sum_cons

@[simp]
theorem queuedTools_nil : queuedTools ([] : List (Session Payload)) = 0 :=
  rfl

@[simp]
theorem queuedTools_cons (sessions : List (Session Payload)) :
    queuedTools (session :: sessions) =
      session.pendingTools.length + queuedTools sessions :=
  List.sum_cons

@[simp]
theorem queuedTools_append (first second : List (Session Payload)) :
    queuedTools (first ++ second) = queuedTools first + queuedTools second := by
  simp [queuedTools]

theorem sessionLoad_pos : 1 ≤ sessionLoad run content session :=
  Nat.le_add_left 1 _

/-- Opening a session lightens the load. -/
theorem sessionLoad_openSession (item : WorkItem Payload) (slots : Nat) :
    sessionLoad run content (openSession run item slots) <
      itemLoad run content item := by
  simp only [sessionLoad, itemLoad, openSession, PhaseRun.allowance, Nat.add_mul,
    Nat.one_mul]
  omega

/-- Admission only lightens the load. -/
theorem load_opened (opened : List (WorkItem Payload × Nat)) :
    sessionsLoad run content
        (opened.map fun entry => openSession run entry.1 entry.2) ≤
      itemsLoad run content (opened.map Prod.fst) := by
  induction opened with
  | nil =>
      exact Nat.le_refl _
  | cons entry rest inductionHypothesis =>
      have lighter :
          sessionLoad run content (openSession run entry.1 entry.2) <
            itemLoad run content entry.1 :=
        sessionLoad_openSession entry.1 entry.2
      simp only [List.map_cons, sessionsLoad_cons, itemsLoad, List.sum_cons]
        at inductionHypothesis ⊢
      omega

/-- A session that has just been opened has queued nothing. -/
theorem queuedTools_opened (opened : List (WorkItem Payload × Nat)) :
    queuedTools (opened.map fun entry => openSession run entry.1 entry.2) = 0 := by
  induction opened with
  | nil =>
      rfl
  | cons entry rest inductionHypothesis =>
      rw [List.map_cons, queuedTools_cons, inductionHypothesis]
      rfl

section Division

variable {item : WorkItem Payload} {children : List (WorkItem Payload)}
  (divides : Divides content run.split) (splits : run.split item = .ok children)

include divides splits

theorem itemsLoad_children :
    itemsLoad run content children ≤ bulk content item * run.allowance := by
  have total := divides.sum_bulk splits
  have several := divides.several item children splits
  have fewer :
      (children.map fun child => bulk content child + 1).sum ≤
        bulk content item := by
    omega
  calc
    itemsLoad run content children =
        (children.map fun child => bulk content child + 1).sum * run.allowance :=
      List.sum_map_mul_right children _ _
    _ ≤ bulk content item * run.allowance := Nat.mul_le_mul_right _ fewer

/-- Looking up the parts of an item is less work than looking up the item. -/
theorem unreadLoad_children :
    unreadLoad run content children < itemLoad run content item + 1 := by
  have total := divides.sum_bulk splits
  have several := divides.several item children splits
  have separate :
      unreadLoad run content children =
        (children.map fun child => bulk content child + 1).sum * run.allowance +
          children.length := by
    rw [unreadLoad, List.sum_map_add, ← List.sum_map_mul_right]
    simp only [List.map_const', List.sum_replicate_nat, Nat.mul_one]
    rfl
  have cuts :
      bulk content item + 1 =
        (children.map fun child => bulk content child + 1).sum +
          (children.length - 1) := by
    omega
  have allowance : 2 ≤ run.allowance := Nat.le_add_left 2 _
  rw [separate, itemLoad, cuts, Nat.add_mul]
  have wide : (children.length - 1) * 2 ≤ (children.length - 1) * run.allowance :=
    Nat.mul_le_mul_left _ allowance
  omega

end Division

end Steps

end Rank

/-! ## How often a session may ask -/

def toolResults (transcript : List Message) : Nat :=
  transcript.countP fun message =>
    match message with
    | .tool _ _ => true
    | _ => false

def requestedTools (transcript : List Message) : Nat :=
  (transcript.map fun message =>
    match message with
    | .assistant _ _ _ calls => calls.length
    | _ => 0).sum

@[simp]
theorem toolResults_append (first second : List Message) :
    toolResults (first ++ second) = toolResults first + toolResults second :=
  List.countP_append

@[simp]
theorem requestedTools_append (first second : List Message) :
    requestedTools (first ++ second) =
      requestedTools first + requestedTools second := by
  simp [requestedTools]

/-- The progress of a session between its first request and its result, with the
requests and the tool calls of the turn it is in. -/
structure Paced (run : PhaseRun Payload) (session : Session Payload)
    (requests inHand : Nat) : Prop where
  rounds : session.rounds ≤ run.settings.maxToolRounds
  calls : session.calls ≤ session.rounds + requests
  /-- Every tool call that was asked for is queued, in hand or answered. -/
  tools :
    toolResults session.transcript + session.pendingTools.length + inHand +
        requestedTools (run.messages session.work) =
      requestedTools session.transcript +
        toolResults (run.messages session.work)

/-- Tools may be called in an answer only while rounds are left. -/
def Open (run : PhaseRun Payload) (turn : LlmTurn Payload) : Prop :=
  turn.final = false →
    turn.recovery = false ∧
      turn.session.rounds < run.settings.maxToolRounds

def PacedControl (run : PhaseRun Payload) (control : Control Payload) : Prop :=
  match control with
  | .turn session => Paced run session 0 0
  | .recordingTool session _ _
  | .executing session _ _
  | .recordingResult session _ _ _ => Paced run session 0 1
  | .recordingRequest turn =>
      Paced run turn.session (if turn.recovery then 1 else 0) 0 ∧ Open run turn
  | .completing turn
  | .recordingAnswer turn _ =>
      Paced run turn.session (if turn.recovery then 2 else 1) 0 ∧ Open run turn
  | .saving session _ => Paced run session 2 0
  | .expanding _ | .scheduling | .returned | .raised _ => True

/-- Every session keeps to its rounds. -/
structure Orderly (run : PhaseRun Payload) (state : SchedulerState Payload) :
    Prop where
  active : ∀ session ∈ state.active, Paced run session 0 0
  control : PacedControl run state.control

section Sessions

variable {run : PhaseRun Payload} {session : Session Payload}
  {requests inHand : Nat}

theorem Paced.mono {more : Nat} (paced : Paced run session requests inHand)
    (atMost : requests ≤ more) : Paced run session more inHand where
  rounds := paced.rounds
  calls := paced.calls.trans (Nat.add_le_add_left atMost _)
  tools := paced.tools

/-- Charges, limitations and reasons say nothing about the progress. -/
theorem Paced.congr {other : Session Payload}
    (paced : Paced run session requests inHand)
    (work : other.work = session.work)
    (transcript : other.transcript = session.transcript)
    (pending : other.pendingTools = session.pendingTools)
    (rounds : other.rounds = session.rounds)
    (calls : other.calls = session.calls) :
    Paced run other requests inHand where
  rounds := by rw [rounds]; exact paced.rounds
  calls := by rw [rounds, calls]; exact paced.calls
  tools := by rw [work, transcript, pending]; exact paced.tools

theorem paced_openSession (item : WorkItem Payload) (slots : Nat) :
    Paced run (openSession run item slots) 0 0 where
  rounds := Nat.zero_le _
  calls := Nat.le_refl 0
  tools := by
    simp only [openSession, List.length_nil]
    omega

/-- A tool call is taken from the queue. -/
theorem Paced.take {call : ToolCall} {calls : List ToolCall}
    {other : Session Payload} (paced : Paced run session 0 0)
    (pending : session.pendingTools = call :: calls)
    (work : other.work = session.work)
    (transcript : other.transcript = session.transcript)
    (queue : other.pendingTools = calls)
    (rounds : other.rounds = session.rounds)
    (requests : other.calls = session.calls) :
    Paced run other 0 1 where
  rounds := by rw [rounds]; exact paced.rounds
  calls := by rw [rounds, requests]; exact paced.calls
  tools := by
    have tools := paced.tools
    rw [pending, List.length_cons] at tools
    rw [work, transcript, queue]
    omega

variable {state : SchedulerState Payload}

theorem orderly_requeue (active : ∀ session ∈ state.active, Paced run session 0 0)
    (paced : Paced run session 0 0) : Orderly run (state.requeue session) where
  active := by
    intro other member
    rcases List.mem_append.mp member with old | new
    · exact active other old
    · rw [List.mem_singleton.mp new]
      exact paced
  control := True.intro

/-- The answer of a tool call that is in hand is appended. -/
theorem orderly_appendToolResult {call : ToolCall} {text : String}
    (active : ∀ session ∈ state.active, Paced run session 0 0)
    (paced : Paced run session 0 1) :
    Orderly run (state.appendToolResult session call text) := by
  refine orderly_requeue active ⟨paced.rounds, paced.calls, ?_⟩
  have tools := paced.tools
  have answered : toolResults [Message.tool call.id text] = 1 := rfl
  have nothing : requestedTools [Message.tool call.id text] = 0 := rfl
  simp only [toolResults_append, requestedTools_append, answered, nothing]
  omega

theorem orderly_checkpoint {closing : Closing Payload}
    {result : Option ParsedReview} {limitations : List String}
    (active : ∀ session ∈ state.active, Paced run session 0 0)
    (paced : Paced run session requests 0) (few : requests ≤ 2) :
    Orderly run (state.checkpoint run session closing result limitations) where
  active := active
  control := paced.mono few

end Sessions

theorem orderly_steps
    {run : PhaseRun Payload} {source target : SchedulerState Payload}
    (orderly : Orderly run source) (steps : Steps run source target) :
    Orderly run target := by
  obtain ⟨active, control⟩ := orderly
  cases steps with
  | expanded stands | wait item rest stands unknown
  | reuseSplit item rest checkpoint children stands known status splits
  | reuseDone item rest checkpoint stands known status
  | reuseStopped item rest checkpoint stands known status
  | raised usage outcome error calls tools =>
      exact ⟨active, True.intro⟩
  | finish waiting stands admitted =>
      exact ⟨fun session member => (nomatch member), True.intro⟩
  | begin waiting session sessions stands admitted =>
      obtain ⟨opened, _, live⟩ := admit_opened admitted
      have all : ∀ other ∈ session :: sessions, Paced run other 0 0 := by
        rw [live]
        intro other member
        rcases List.mem_append.mp member with old | new
        · exact active other old
        · obtain ⟨entry, _, rfl⟩ := List.mem_map.mp new
          exact paced_openSession entry.1 entry.2
      rw [List.forall_mem_cons] at all
      exact ⟨all.2, all.1⟩
  | suppressDuplicate session call calls stands pending
  | suppressTool session call calls stands pending =>
      simp only [PacedControl, stands] at control
      exact
        orderly_appendToolResult active
          (control.take pending rfl rfl rfl rfl rfl)
  | recordTool session call calls key stands pending affordable =>
      simp only [PacedControl, stands] at control
      exact ⟨active, control.take pending rfl rfl rfl rfl rfl⟩
  | stop session stands pending exhausted =>
      simp only [PacedControl, stands] at control
      exact orderly_checkpoint active control (Nat.zero_le 2)
  | ask session stands pending available open_ =>
      simp only [PacedControl, stands] at control
      obtain ⟨rounds, _, _⟩ := finalReason_eq_none open_
      exact ⟨active, control, fun _ => ⟨rfl, rounds⟩⟩
  | askFinal session reason stands pending available =>
      simp only [PacedControl, stands] at control
      refine ⟨active, control.congr rfl rfl rfl rfl rfl, ?_⟩
      intro open_
      cases open_
  | dispatch turn stands =>
      simp only [PacedControl, stands] at control
      obtain ⟨paced, open_⟩ := control
      refine ⟨active, ⟨paced.rounds, ?_, paced.tools⟩, open_⟩
      have calls := paced.calls
      dsimp only
      split
      · rename_i recovery
        rw [if_pos recovery] at calls
        omega
      · rename_i first
        rw [if_neg first] at calls
        omega
  | receive turn answer stands =>
      simp only [PacedControl, stands] at control
      exact ⟨active, control⟩
  | splitRejected turn error children stands splits
  | splitTruncated turn completion children stands splits
  | splitUnparsed turn completion children stands splits
  | done turn completion result stands parsed =>
      simp only [PacedControl, stands] at control
      refine
        orderly_checkpoint active (control.1.congr rfl rfl rfl rfl rfl) ?_
      split <;> omega
  | recover turn completion stands first =>
      simp only [PacedControl, stands, first, if_false, Bool.false_eq_true]
        at control
      refine ⟨active, control.1.congr rfl rfl rfl rfl rfl, ?_⟩
      intro open_
      cases open_
  | callTools turn completion stands calls open_ =>
      simp only [PacedControl, stands] at control
      obtain ⟨paced, isOpen⟩ := control
      obtain ⟨first, left⟩ := isOpen open_
      rw [first] at paced
      have requests := paced.calls
      have tools := paced.tools
      have nothing :
          toolResults [assistantMessageForToolLoop completion] = 0 := rfl
      have asked :
          requestedTools [assistantMessageForToolLoop completion] =
            completion.toolCalls.length := rfl
      refine orderly_requeue active ⟨left, requests, ?_⟩
      simp only [Session.billed, toolResults_append, requestedTools_append,
        nothing, asked, List.length_append]
      omega
  | execute session call key stands =>
      simp only [PacedControl, stands] at control
      exact ⟨active, control.congr rfl rfl rfl rfl rfl⟩
  | result session call key text stands =>
      simp only [PacedControl, stands] at control
      exact ⟨active, control⟩
  | keepResult session call key text stands =>
      simp only [PacedControl, stands] at control
      unfold keepToolResult
      dsimp only
      split
      · exact orderly_appendToolResult active control
      · exact
          orderly_appendToolResult active (control.congr rfl rfl rfl rfl rfl)
  | saved session closing stands =>
      cases closing with
      | done | stopped | split children =>
          exact ⟨active, True.intro⟩

theorem Reached.orderly
    {run : PhaseRun Payload} {work : List (WorkItem Payload)} {usage : Usage}
    {checkpoints : Dict String WorkCheckpoint} {state : SchedulerState Payload}
    (reached : Reached run work usage checkpoints state) :
    Orderly run state := by
  refine reached.invariant ?_ (fun _ _ => orderly_steps)
  exact ⟨fun session member => (nomatch member), True.intro⟩

/-! ## Every step lowers the rank -/

section Lowers

variable {run : PhaseRun Payload} {content : Payload → List Content}
  {source target state : SchedulerState Payload} {session : Session Payload}

/-- A session that goes back to the queue is counted there. -/
theorem load_requeue :
    (state.requeue session).load run content =
      itemsLoad run content state.waiting + sessionsLoad run content state.active +
        sessionLoad run content session := by
  simp only [load, requeue, unreadItems, partsInHand, sessionInHand,
    unreadLoad_nil, itemsLoad_nil, sessionsLoad_nil, sessionsLoad_append,
    sessionsLoad_cons]
  omega

theorem queuedTools_requeue :
    queuedTools
        (sessionInHand (state.requeue session).control ++
          (state.requeue session).active) =
      queuedTools state.active + session.pendingTools.length := by
  simp [requeue, sessionInHand]

/-- The load while the run works on a session. -/
theorem load_of_sessionInHand
    (inHand : sessionInHand state.control = [session]) :
    state.load run content =
      itemsLoad run content state.waiting + sessionsLoad run content state.active +
        sessionLoad run content session := by
  unfold load
  generalize state.control = control at inHand
  cases control <;> cases inHand <;>
    simp only [unreadItems, partsInHand, sessionInHand, unreadLoad_nil,
      itemsLoad_nil, sessionsLoad_cons, sessionsLoad_nil] <;> omega

theorem queuedTools_of_sessionInHand
    (inHand : sessionInHand state.control = [session]) :
    queuedTools (sessionInHand state.control ++ state.active) =
      queuedTools state.active + session.pendingTools.length := by
  rw [inHand, List.singleton_append, queuedTools_cons, Nat.add_comm]

/-- Working on a session goes on, closer to the end of its turn. -/
theorem rank_lt_of_work {other : Session Payload}
    (before : sessionInHand source.control = [session])
    (after : sessionInHand target.control = [other])
    (waiting : target.waiting = source.waiting)
    (active : target.active = source.active) (work : other.work = session.work)
    (rounds : other.rounds = session.rounds)
    (tools : other.pendingTools = session.pendingTools)
    (later : stage target.control < stage source.control) :
    rank run content target < rank run content source := by
  have weight :
      sessionLoad run content other = sessionLoad run content session := by
    simp only [sessionLoad, work, rounds]
  refine rank_lt_of_stage (Nat.le_of_eq ?_) (Nat.le_of_eq ?_) later
  · rw [load_of_sessionInHand before, load_of_sessionInHand after, waiting,
      active, weight]
  · rw [queuedTools_of_sessionInHand before, queuedTools_of_sessionInHand after,
      active, tools]

/-- A queued tool call is taken up or suppressed. -/
theorem rank_lt_of_take {other : Session Payload} {call : ToolCall}
    {calls : List ToolCall}
    (before : sessionInHand source.control = [session])
    (pending : session.pendingTools = call :: calls)
    (after :
      target.load run content =
          itemsLoad run content source.waiting +
            sessionsLoad run content source.active +
            sessionLoad run content other ∧
        queuedTools (sessionInHand target.control ++ target.active) =
          queuedTools source.active + other.pendingTools.length)
    (work : other.work = session.work) (rounds : other.rounds = session.rounds)
    (left : other.pendingTools = calls) :
    rank run content target < rank run content source := by
  refine rank_lt_of_tools (Nat.le_of_eq ?_) ?_
  · rw [after.1, load_of_sessionInHand before]
    simp only [sessionLoad, work, rounds]
  · rw [after.2, queuedTools_of_sessionInHand before, pending, left,
      List.length_cons]
    omega

/-- A session is closed, at the most for the parts of its item. -/
theorem rank_lt_of_close
    {closed : SchedulerState Payload} {other : Session Payload}
    {closing : Closing Payload} {result : Option ParsedReview}
    {limitations : List String}
    (before : sessionInHand source.control = [session])
    (waiting : closed.waiting = source.waiting)
    (active : closed.active = source.active)
    (lighter :
      itemsLoad run content (partsInHand (.saving other closing)) <
        sessionLoad run content session) :
    rank run content (closed.checkpoint run other closing result limitations) <
      rank run content source := by
  refine rank_lt_of_load ?_
  rw [load_of_sessionInHand before]
  have after :
      (closed.checkpoint run other closing result limitations).load run content =
        itemsLoad run content (partsInHand (.saving other closing)) +
          itemsLoad run content source.waiting +
          sessionsLoad run content source.active := by
    simp only [load, checkpoint, unreadItems, sessionInHand, unreadLoad_nil,
      sessionsLoad_nil, waiting, active]
    omega
  omega

theorem itemsLoad_children_lt
    (divides : Divides content run.split) {children : List (WorkItem Payload)}
    (splits : run.split session.work = .ok children) :
    itemsLoad run content children < sessionLoad run content session := by
  have parts := itemsLoad_children divides splits
  unfold sessionLoad
  omega

theorem rank_steps (divides : Divides content run.split)
    (orderly : Orderly run source) (running : 0 < stage source.control)
    (steps : Steps run source target) :
    rank run content target < rank run content source := by
  cases steps with
  | expanded stands =>
      refine rank_lt_of_stage (Nat.le_of_eq ?_) (Nat.le_of_eq ?_) ?_
      · simp only [load, stands, unreadItems, partsInHand, sessionInHand]
      · simp only [stands, sessionInHand]
      · simp only [stands, stage]
        omega
  | wait item rest stands unknown =>
      refine rank_lt_of_load ?_
      simp only [load, stands, unreadItems, partsInHand, sessionInHand,
        itemsLoad_append, itemsLoad_singleton, unreadLoad_cons]
      omega
  | reuseSplit item rest checkpoint children stands known status splits =>
      have lighter := unreadLoad_children divides splits
      refine rank_lt_of_load ?_
      simp only [load, stands, unreadItems, partsInHand, sessionInHand,
        unreadLoad_cons]
      simp only [unreadLoad, List.map_append, List.sum_append] at lighter ⊢
      omega
  | reuseDone item rest checkpoint stands known status
  | reuseStopped item rest checkpoint stands known status =>
      refine rank_lt_of_load ?_
      simp only [load, stands, unreadItems, partsInHand, sessionInHand,
        unreadLoad_cons]
      omega
  | finish waiting stands admitted =>
      obtain ⟨opened, queue, sessions⟩ := admit_opened admitted
      have idle := (List.append_eq_nil_iff.mp sessions.symm).1
      refine rank_lt_of_stage ?_ ?_ ?_
      · simp only [load, SchedulerState.finish, stands, unreadItems, partsInHand,
          sessionInHand, queue, itemsLoad_append, sessionsLoad_nil]
        omega
      · simp only [SchedulerState.finish, stands, sessionInHand, idle]
        omega
      · simp only [SchedulerState.finish, stands, stage]
        omega
  | begin waiting session active stands admitted =>
      obtain ⟨opened, queue, sessions⟩ := admit_opened admitted
      have light :
          sessionsLoad run content
              (opened.map fun entry => openSession run entry.1 entry.2) ≤
            itemsLoad run content (opened.map Prod.fst) :=
        load_opened opened
      have total := congrArg (sessionsLoad run content) sessions
      have idle :
          queuedTools (opened.map fun entry => openSession run entry.1 entry.2) = 0 :=
        queuedTools_opened opened
      have tools := congrArg queuedTools sessions
      simp only [sessionsLoad_cons, sessionsLoad_append, queuedTools_cons,
        queuedTools_append] at total tools
      refine rank_lt_of_stage ?_ ?_ ?_
      · simp only [load, stands, unreadItems, partsInHand, sessionInHand, queue,
          itemsLoad_append, sessionsLoad_cons, sessionsLoad_nil]
        omega
      · simp only [stands, sessionInHand, queuedTools_append, queuedTools_cons,
          queuedTools_nil]
        omega
      · simp only [stands, stage]
        omega
  | suppressDuplicate session call calls stands pending
  | suppressTool session call calls stands pending =>
      refine
        rank_lt_of_take (by simp only [stands, sessionInHand]) pending
          ⟨load_requeue, queuedTools_requeue⟩ rfl rfl rfl
  | recordTool session call calls key stands pending affordable =>
      refine
        rank_lt_of_take (by simp only [stands, sessionInHand]) pending
          ⟨load_of_sessionInHand rfl, queuedTools_of_sessionInHand rfl⟩
          rfl rfl rfl
  | stop session stands pending exhausted =>
      exact
        rank_lt_of_close (congrArg sessionInHand stands) rfl rfl sessionLoad_pos
  | ask session stands pending available open_
  | askFinal session reason stands pending available =>
      refine
        rank_lt_of_work (congrArg sessionInHand stands)
          rfl rfl rfl rfl rfl rfl ?_
      simp only [stands, stage, Bool.false_eq_true, if_false]
      omega
  | dispatch turn stands =>
      refine
        rank_lt_of_work (congrArg sessionInHand stands) rfl rfl rfl rfl rfl rfl ?_
      simp only [SchedulerState.dispatch, stands, stage]
      split <;> omega
  | receive turn answer stands =>
      refine
        rank_lt_of_work (congrArg sessionInHand stands) rfl rfl rfl rfl rfl rfl ?_
      simp only [stands, stage]
      split <;> omega
  | splitRejected turn error children stands splits
  | splitTruncated turn completion children stands splits
  | splitUnparsed turn completion children stands splits =>
      exact
        rank_lt_of_close (congrArg sessionInHand stands) rfl rfl
          (itemsLoad_children_lt divides splits)
  | done turn completion result stands parsed =>
      exact
        rank_lt_of_close (congrArg sessionInHand stands) rfl rfl sessionLoad_pos
  | recover turn completion stands first =>
      refine
        rank_lt_of_work (congrArg sessionInHand stands) rfl rfl rfl rfl rfl rfl ?_
      simp only [stands, stage, first, Bool.false_eq_true, if_false, if_true]
      omega
  | callTools turn completion stands calls open_ =>
      have control := orderly.control
      simp only [PacedControl, stands] at control
      have left := (control.2 open_).2
      refine rank_lt_of_load ?_
      rw [load_requeue,
        load_of_sessionInHand (congrArg sessionInHand stands)]
      -- The answer has used up a round.
      simp only [sessionLoad, Session.billed, SchedulerState.billed]
      omega
  | execute session call key stands
  | result session call key text stands =>
      refine
        rank_lt_of_work (congrArg sessionInHand stands)
          rfl rfl rfl rfl rfl rfl ?_
      simp only [executeTool, stands, stage]
      omega
  | keepResult session call key text stands =>
      have inHand : sessionInHand source.control = [session] := by
        simp only [stands, sessionInHand]
      unfold keepToolResult
      dsimp only
      split
      · refine rank_lt_of_stage (Nat.le_of_eq ?_) (Nat.le_of_eq ?_) ?_
        · rw [load_of_sessionInHand inHand]
          exact load_requeue
        · rw [queuedTools_of_sessionInHand inHand]
          exact queuedTools_requeue
        · simp only [appendToolResult, requeue, stands, stage]
          omega
      · refine rank_lt_of_stage (Nat.le_of_eq ?_) (Nat.le_of_eq ?_) ?_
        · rw [load_of_sessionInHand inHand]
          exact load_requeue
        · rw [queuedTools_of_sessionInHand inHand]
          exact queuedTools_requeue
        · simp only [appendToolResult, requeue, stands, stage]
          omega
  | saved session closing stands =>
      cases closing with
      | done | stopped =>
          refine rank_lt_of_stage (Nat.le_of_eq ?_) (Nat.le_of_eq ?_) ?_
          · simp only [load, saveDone, stands, unreadItems, partsInHand,
              sessionInHand]
          · simp only [saveDone, stands, sessionInHand]
          · simp only [saveDone, stands, stage]
            omega
      | split children =>
          refine rank_lt_of_stage (Nat.le_of_eq ?_) (Nat.le_of_eq ?_) ?_
          · simp only [load, saveDone, stands, unreadItems, partsInHand,
              sessionInHand, itemsLoad_append, itemsLoad_nil]
            omega
          · simp only [saveDone, stands, sessionInHand]
          · simp only [saveDone, stands, stage]
            omega
  | raised usage outcome error calls tools =>
      refine rank_lt_of_stage ?_ ?_ running
      · simp only [load, unreadItems, partsInHand, sessionInHand, unreadLoad_nil,
          itemsLoad_nil, sessionsLoad_nil]
        omega
      · simp only [sessionInHand, queuedTools_append, queuedTools_nil]
        omega

end Lowers

/-- A state from which a step is possible has not left the run. -/
theorem stage_pos {run : PhaseRun Payload} {reply : Reply}
    {source target : SchedulerState Payload}
    (stepped : step run reply source = some target) : 0 < stage source.control := by
  unfold step at stepped
  cases stands : source.control with
  | returned | raised error =>
      rw [stands] at stepped
      cases stepped
  | recordingRequest turn | completing turn | recordingAnswer turn answer =>
      simp only [stage]
      split <;> omega
  | _ =>
      simp only [stage]
      omega

/-- A run on work that its split function divides takes finitely many steps. -/
theorem no_infinite_run
    {run : PhaseRun Payload} {content : Payload → List Content}
    (divides : Divides content run.split) {work : List (WorkItem Payload)}
    {usage : Usage} {checkpoints : Dict String WorkCheckpoint}
    {replies : Nat → Reply} {trace : Nat → SchedulerState Payload}
    (begins : trace 0 = start work usage checkpoints)
    (runs : ∀ moment,
      step run (replies moment) (trace moment) = some (trace (moment + 1))) :
    False := by
  refine Process.no_infinite_run (rank run content) (Orderly run) ?_ ?_ ?_ runs
  · intro reply source target orderly stepped
    exact orderly_steps orderly (.of_step stepped)
  · intro reply source target orderly stepped
    exact rank_steps divides orderly (stage_pos stepped) (.of_step stepped)
  · rw [begins]
    exact ⟨fun session member => (nomatch member), True.intro⟩

/-- A run that cannot go on has returned or raised. -/
theorem left_of_stuck {run : PhaseRun Payload} {state : SchedulerState Payload}
    (stuck : ∀ reply, step run reply state = none) :
    state.control = .returned ∨ ∃ error, state.control = .raised error := by
  unfold step at stuck
  cases stands : state.control with
  | returned =>
      exact .inl rfl
  | raised error =>
      exact .inr ⟨error, rfl⟩
  | expanding items =>
      have next := stuck .proceed
      rw [stands] at next
      cases items <;> cases next
  | scheduling | turn session =>
      have next := stuck .proceed
      rw [stands] at next
      cases next
  | completing turn =>
      have next := stuck (.completed (.ok {}))
      rw [stands] at next
      cases next
  | executing session call key =>
      have next := stuck (.executed (.text ""))
      rw [stands] at next
      cases next
  | recordingRequest turn | recordingAnswer turn answer
  | recordingTool session call key | recordingResult session call key result
  | saving session closing =>
      have next := stuck .acknowledged
      rw [stands] at next
      cases next

/-- A session makes at most two requests more than it has rounds, and answers no
tool call that was not asked for. -/
theorem Reached.session_bounded
    {run : PhaseRun Payload} {work : List (WorkItem Payload)} {usage : Usage}
    {checkpoints : Dict String WorkCheckpoint} {state : SchedulerState Payload}
    (reached : Reached run work usage checkpoints state) {session : Session Payload}
    (live :
      session ∈
        sessionInHand state.control ++ state.closed.map Prod.fst ++ state.active) :
    session.rounds ≤ run.settings.maxToolRounds ∧
      session.calls ≤ run.settings.maxToolRounds + 2 ∧
      toolResults session.transcript + requestedTools (run.messages session.work) ≤
        requestedTools session.transcript +
          toolResults (run.messages session.work) := by
  have bounded : ∀ {session : Session Payload} {requests inHand : Nat},
      Paced run session requests inHand → requests ≤ 2 →
      session.rounds ≤ run.settings.maxToolRounds ∧
        session.calls ≤ run.settings.maxToolRounds + 2 ∧
        toolResults session.transcript +
            requestedTools (run.messages session.work) ≤
          requestedTools session.transcript +
            toolResults (run.messages session.work) := by
    intro session requests inHand paced few
    have rounds := paced.rounds
    have calls := paced.calls
    have tools := paced.tools
    exact ⟨rounds, by omega, by omega⟩
  obtain ⟨active, control⟩ := reached.orderly
  rcases List.mem_append.mp live with now | queued
  · unfold SchedulerState.closed at now
    generalize state.control = stands at now control
    cases stands with
    | expanding items | scheduling | returned | raised error =>
        cases now
    | turn other | recordingTool other call key | executing other call key
    | recordingResult other call key result =>
        cases List.mem_singleton.mp now
        exact bounded control (Nat.zero_le 2)
    | saving other closing =>
        cases List.mem_singleton.mp now
        exact bounded control (Nat.le_refl 2)
    | recordingRequest turn | completing turn | recordingAnswer turn answer =>
        cases List.mem_singleton.mp now
        refine bounded control.1 ?_
        split <;> omega
  · exact bounded (active session queued) (Nat.zero_le 2)

end SchedulerState

end PeReview.Scheduling
