import PeReview.Process.WorkPool
import PeReview.Review.Scheduling.Steps

/-!
# No work is lost

The scheduler works through the forest its `split` function spans over the work list,
as the pool of `Process.WorkPool` does: each of its steps is one of the pool's, or
only moves items between the queue, the live sessions and the outcome.
-/

namespace PeReview.Scheduling

open PeReview.Data PeReview.Process

variable {Payload : Type}

def workForest (run : PhaseRun Payload) (work : List (WorkItem Payload)) :
    Forest (WorkItem Payload) String where
  roots := work
  parts item := (run.split item).toOption
  key := WorkItem.key

/-- The status a key is checkpointed with. -/
def statusOf (checkpoints : Dict String WorkCheckpoint) (key : String) :
    Option CheckpointStatus :=
  (Dict.get? checkpoints key).map WorkCheckpoint.status

theorem statusOf_set
    (checkpoints : Dict String WorkCheckpoint) (key : String)
    (checkpoint : WorkCheckpoint) :
    statusOf (Dict.set checkpoints key checkpoint) =
      Function.update (statusOf checkpoints) key (some checkpoint.status) := by
  funext other
  by_cases same : other = key
  · subst same
    simp [statusOf]
  · rw [Function.update_of_ne same]
    simp only [statusOf]
    rw [Dict.get?_set_of_ne _ _ (Ne.symm same)]

theorem parts_workForest
    {run : PhaseRun Payload} {work : List (WorkItem Payload)}
    {item : WorkItem Payload} {children : List (WorkItem Payload)}
    (splits : run.split item = .ok children) :
    (workForest run work).parts item = some children := by
  simp [workForest, splits, Except.toOption]

namespace SchedulerState

def unreadItems : Control Payload → List (WorkItem Payload)
  | .expanding items => items
  | _ => []

/-- The children of the item whose split is being saved. -/
def partsInHand : Control Payload → List (WorkItem Payload)
  | .saving _ (.split children) => children
  | _ => []

/-- The item whose result is being saved. -/
def settledInHand : Control Payload → List (WorkItem Payload × CheckpointStatus)
  | .saving session .done => [(session.work, .done)]
  | .saving session .stopped => [(session.work, .stopped)]
  | _ => []

def settledItems (outcome : PhaseResult Payload) :
    Multiset (WorkItem Payload × CheckpointStatus) :=
  ↑(outcome.completed.map fun item => (item, CheckpointStatus.done)) +
    ↑(outcome.pending.map fun item => (item, CheckpointStatus.stopped))

/-- The items that are not in hand: queued, or of a session in the queue. -/
def queued (state : SchedulerState Payload) : Multiset (WorkItem Payload) :=
  ↑state.waiting + ↑(state.active.map Session.work)

def pool (state : SchedulerState Payload) :
    WorkPool (WorkItem Payload) String CheckpointStatus where
  unread := unreadItems state.control
  open_ :=
    ↑(itemInHand state.control) + ↑(partsInHand state.control) + state.queued
  settled := ↑(settledInHand state.control) + settledItems state.outcome
  status := statusOf state.checkpoints

def poolWith (state : SchedulerState Payload) (item : WorkItem Payload) :
    WorkPool (WorkItem Payload) String CheckpointStatus where
  unread := []
  open_ := item ::ₘ state.queued
  settled := settledItems state.outcome
  status := statusOf state.checkpoints

/-- While an item is worked on, nothing is being expanded or saved. -/
theorem nothing_else_inHand
    {control : Control Payload} {item : WorkItem Payload}
    (inHand : itemInHand control = [item]) :
    unreadItems control = [] ∧ partsInHand control = [] ∧
      settledInHand control = [] := by
  cases control with
  | expanding items | scheduling | saving session closing | returned
  | raised error =>
      simp only [itemInHand] at inHand
      cases inHand
  | _ =>
      exact ⟨rfl, rfl, rfl⟩

theorem pool_of_itemInHand
    {state : SchedulerState Payload} {item : WorkItem Payload}
    (inHand : itemInHand state.control = [item]) :
    state.pool = state.poolWith item := by
  obtain ⟨unread, parts, settled⟩ := nothing_else_inHand inHand
  simp only [pool, poolWith, inHand, unread, parts, settled, Multiset.coe_nil,
    Multiset.coe_singleton, zero_add, add_zero, Multiset.singleton_add]

theorem pool_requeue (state : SchedulerState Payload) (session : Session Payload) :
    (state.requeue session).pool = state.poolWith session.work := by
  ext1
  · rfl
  · simp only [pool, poolWith, queued, requeue, itemInHand, partsInHand,
      List.map_append, List.map_cons, List.map_nil, ← Multiset.coe_add,
      Multiset.coe_nil, Multiset.coe_singleton, zero_add]
    rw [← Multiset.singleton_add]
    ac_rfl
  · simp only [pool, poolWith, requeue, settledInHand, Multiset.coe_nil, zero_add]
  · rfl

/-- Saving the result of an item. -/
theorem pool_checkpoint_settle
    (run : PhaseRun Payload) (state : SchedulerState Payload)
    (session : Session Payload) {closing : Closing Payload}
    (result : Option ParsedReview) (limitations : List String)
    (whole : closing = .done ∨ closing = .stopped) :
    (state.checkpoint run session closing result limitations).pool =
      { unread := []
        open_ := state.queued
        settled :=
          (session.work, closing.status) ::ₘ settledItems state.outcome
        status :=
          Function.update (statusOf state.checkpoints) session.work.key
            (some closing.status) } := by
  ext1
  · rfl
  · rcases whole with rfl | rfl
    · simp only [pool, checkpoint, itemInHand, partsInHand, Multiset.coe_nil,
        zero_add, queued]
    · simp only [pool, checkpoint, itemInHand, partsInHand, Multiset.coe_nil,
        zero_add, queued]
  · rcases whole with rfl | rfl
    · simp only [pool, checkpoint, settledInHand, Multiset.coe_singleton,
        Multiset.singleton_add, Closing.status]
    · simp only [pool, checkpoint, settledInHand, Multiset.coe_singleton,
        Multiset.singleton_add, Closing.status]
  · exact statusOf_set _ _ _

/-- Saving the split of an item. -/
theorem pool_checkpoint_divide
    (run : PhaseRun Payload) (state : SchedulerState Payload)
    (session : Session Payload) (children : List (WorkItem Payload))
    (result : Option ParsedReview) (limitations : List String) :
    (state.checkpoint run session (.split children) result limitations).pool =
      { unread := []
        open_ := ↑children + state.queued
        settled := settledItems state.outcome
        status :=
          Function.update (statusOf state.checkpoints) session.work.key
            (some .split) } := by
  ext1
  · rfl
  · simp only [pool, checkpoint, itemInHand, partsInHand, Multiset.coe_nil,
      zero_add, queued]
  · simp only [pool, checkpoint, settledInHand, Multiset.coe_nil, zero_add]
  · exact statusOf_set _ _ _

/-- Once a checkpoint is acknowledged, the item or its children are where the pool
already has them. -/
theorem pool_saveDone
    {run : PhaseRun Payload} {state : SchedulerState Payload}
    {session : Session Payload} {closing : Closing Payload}
    (stands : state.control = .saving session closing) :
    (state.saveDone run session closing).pool = state.pool := by
  cases closing with
  | done =>
      ext1
      · simp only [pool, stands, saveDone, unreadItems]
      · simp only [pool, stands, saveDone, itemInHand, partsInHand, queued]
      · simp only [pool, stands, saveDone, settledInHand, settledItems,
          List.map_append, List.map_cons, List.map_nil, ← Multiset.coe_add,
          Multiset.coe_nil, Multiset.coe_singleton, zero_add]
        ac_rfl
      · simp only [pool, saveDone]
  | stopped =>
      ext1
      · simp only [pool, stands, saveDone, unreadItems]
      · simp only [pool, stands, saveDone, itemInHand, partsInHand, queued]
      · simp only [pool, stands, saveDone, settledInHand, settledItems,
          List.map_append, List.map_cons, List.map_nil, ← Multiset.coe_add,
          Multiset.coe_nil, Multiset.coe_singleton, zero_add]
        ac_rfl
      · simp only [pool, saveDone]
  | split children =>
      ext1
      · simp only [pool, stands, saveDone, unreadItems]
      · simp only [pool, stands, saveDone, itemInHand, partsInHand, queued,
          ← Multiset.coe_add, Multiset.coe_nil, zero_add]
        ac_rfl
      · simp only [pool, stands, saveDone, settledInHand, settledItems]
      · simp only [pool, saveDone]

section Refinement

variable {run : PhaseRun Payload} {work : List (WorkItem Payload)}
  {source target : SchedulerState Payload}

/-- A step that moves items around is none of the pool's. -/
theorem step_of_pool_eq (same : target.pool = source.pool) :
    WorkPool.Step (workForest run work) .split source.pool target.pool := by
  rw [same]
  exact .stay

/-- Working on an item goes on. -/
theorem step_of_poolWith {item : WorkItem Payload}
    (before : itemInHand source.control = [item])
    (after : target.pool = source.poolWith item) :
    WorkPool.Step (workForest run work) .split source.pool target.pool :=
  step_of_pool_eq (after.trans (pool_of_itemInHand before).symm)

theorem step_of_settle {session : Session Payload} {closing : Closing Payload}
    {status : Dict String WorkCheckpoint}
    (before : itemInHand source.control = [session.work])
    (checkpoints : status = source.checkpoints)
    (whole : closing.status ≠ .split)
    (after : target.pool =
      { unread := []
        open_ := source.queued
        settled :=
          (session.work, closing.status) ::ₘ settledItems source.outcome
        status :=
          Function.update (statusOf status) session.work.key
            (some closing.status) }) :
    WorkPool.Step (workForest run work) .split source.pool target.pool := by
  rw [after, pool_of_itemInHand before, checkpoints]
  exact .settle session.work source.queued closing.status rfl rfl whole

theorem step_of_divide {session : Session Payload}
    {children : List (WorkItem Payload)} {status : Dict String WorkCheckpoint}
    (before : itemInHand source.control = [session.work])
    (checkpoints : status = source.checkpoints)
    (splits : run.split session.work = .ok children)
    (after : target.pool =
      { unread := []
        open_ := ↑children + source.queued
        settled := settledItems source.outcome
        status :=
          Function.update (statusOf status) session.work.key (some .split) }) :
    WorkPool.Step (workForest run work) .split source.pool target.pool := by
  rw [after, pool_of_itemInHand before, checkpoints]
  exact
    .divide session.work source.queued children rfl rfl
      (parts_workForest splits)

/-- The status of an item is read back. -/
theorem reuse_step {item : WorkItem Payload} {rest : List (WorkItem Payload)}
    {checkpoint : WorkCheckpoint} {outcome : PhaseResult Payload}
    (stands : source.control = .expanding (item :: rest))
    (known : Dict.get? source.checkpoints item.key = some checkpoint)
    (whole : checkpoint.status ≠ .split)
    (control : target.control = .expanding rest)
    (queue : target.queued = source.queued)
    (checkpoints : target.checkpoints = source.checkpoints)
    (result : target.outcome = outcome)
    (settled :
      settledItems outcome =
        (item, checkpoint.status) ::ₘ settledItems source.outcome) :
    WorkPool.Step (workForest run work) .split source.pool target.pool := by
  have first : source.pool.unread = item :: rest := by
    simp only [pool, stands, unreadItems]
  have marked : source.pool.status item.key = some checkpoint.status := by
    simp only [pool, statusOf, known, Option.map_some]
  have after :
      target.pool =
        { source.pool with
          unread := rest
          settled := (item, checkpoint.status) ::ₘ source.pool.settled } := by
    ext1
    · simp only [pool, control, unreadItems]
    · simp only [pool, stands, control, itemInHand, partsInHand, queue]
    · simp only [pool, stands, control, settledInHand, result, settled,
        Multiset.coe_nil, zero_add]
    · simp only [pool, checkpoints]
  rw [after]
  exact .reuse item rest checkpoint.status first marked whole

/-- A step of the scheduler that does not leave the run is one of the pool's. -/
theorem pool_step (steps : Steps run source target)
    (running : ∀ error, target.control ≠ .raised error)
    (loops : target.control ≠ .returned) :
    WorkPool.Step (workForest run work) .split source.pool target.pool := by
  cases steps with
  | raised usage outcome error calls tools =>
      exact absurd rfl (running error)
  | finish waiting stands admitted =>
      exact absurd rfl loops
  | expanded stands =>
      refine step_of_pool_eq ?_
      simp only [pool, stands, unreadItems, itemInHand, partsInHand,
        settledInHand, queued]
  | wait item rest stands unknown =>
      have first : source.pool.unread = item :: rest := by
        simp only [pool, stands, unreadItems]
      have unmarked : source.pool.status item.key = none := by
        simp only [pool, statusOf, unknown, Option.map_none]
      have after :
          ({ source with
              waiting := source.waiting ++ [item]
              control := .expanding rest } : SchedulerState Payload).pool =
            { source.pool with
              unread := rest
              open_ := item ::ₘ source.pool.open_ } := by
        ext1
        · rfl
        · simp only [pool, stands, itemInHand, partsInHand, queued,
            ← Multiset.coe_add, Multiset.coe_nil, Multiset.coe_singleton,
            zero_add, ← Multiset.singleton_add]
          ac_rfl
        · simp only [pool, stands, settledInHand]
        · rfl
      rw [after]
      exact .take item rest first unmarked
  | reuseSplit item rest checkpoint children stands known status splits =>
      have first : source.pool.unread = item :: rest := by
        simp only [pool, stands, unreadItems]
      have marked : source.pool.status item.key = some .split := by
        simp only [pool, statusOf, known, Option.map_some, status]
      have after :
          ({ source with
              outcome := { source.outcome with reused := source.outcome.reused + 1 }
              control := .expanding (children ++ rest) } :
            SchedulerState Payload).pool =
            { source.pool with unread := children ++ rest } := by
        simp only [pool, stands, unreadItems, itemInHand, partsInHand,
          settledInHand, queued, settledItems]
      rw [after]
      exact .unfold_ item rest children first marked (parts_workForest splits)
  | reuseDone item rest checkpoint stands known status =>
      refine reuse_step stands known (by simp [status]) rfl rfl rfl rfl ?_
      simp only [settledItems, status, List.map_append, List.map_cons,
        List.map_nil, ← Multiset.coe_add, Multiset.coe_singleton,
        ← Multiset.singleton_add]
      ac_rfl
  | reuseStopped item rest checkpoint stands known status =>
      refine reuse_step stands known (by simp [status]) rfl rfl rfl rfl ?_
      simp only [settledItems, status, List.map_append, List.map_cons,
        List.map_nil, ← Multiset.coe_add, Multiset.coe_singleton,
        ← Multiset.singleton_add]
      ac_rfl
  | begin waiting session active stands admitted =>
      obtain ⟨opened, taken, sessions⟩ := admit_opened admitted
      have works : (session :: active).map Session.work =
          source.active.map Session.work ++ opened.map Prod.fst := by
        rw [sessions, List.map_append, List.map_map]
        rfl
      refine step_of_pool_eq ?_
      ext1
      · simp only [pool, stands, unreadItems]
      · simp only [pool, stands, itemInHand, partsInHand, queued, taken,
          ← Multiset.coe_add, Multiset.coe_nil, zero_add]
        have live : (↑[session.work] : Multiset (WorkItem Payload)) +
            ↑(active.map Session.work) =
              ↑(source.active.map Session.work) + ↑(opened.map Prod.fst) := by
          rw [Multiset.coe_add, Multiset.coe_add, ← works]
          rfl
        calc
          _ = (↑waiting : Multiset (WorkItem Payload)) +
              (↑[session.work] + ↑(active.map Session.work)) := by
            ac_rfl
          _ = _ := by
            rw [live]
            ac_rfl
      · simp only [pool, stands, settledInHand]
      · rfl
  | suppressDuplicate session call calls stands pending
  | suppressTool session call calls stands pending =>
      have before : itemInHand source.control = [session.work] := by
        simp only [stands, itemInHand]
      exact step_of_poolWith before (pool_requeue source _)
  | keepResult session call key text stands =>
      have before : itemInHand source.control = [session.work] := by
        simp only [stands, itemInHand]
      refine step_of_poolWith before ?_
      unfold keepToolResult
      dsimp only
      split
      · exact pool_requeue source _
      · exact pool_requeue source _
  | callTools turn completion stands calls open_ =>
      have before : itemInHand source.control = [turn.session.work] := by
        simp only [stands, itemInHand]
      exact step_of_poolWith before (pool_requeue (source.billed _ _) _)
  | stop session stands pending exhausted =>
      have before : itemInHand source.control = [session.work] := by
        simp only [stands, itemInHand]
      exact
        step_of_settle before rfl (by simp [Closing.status])
          (pool_checkpoint_settle run source session none _ (.inr rfl))
  | done turn completion result stands parsed =>
      have before : itemInHand source.control = [turn.session.work] := by
        simp only [stands, itemInHand]
      exact
        step_of_settle before rfl (by simp [Closing.status])
          (pool_checkpoint_settle run (source.billed _ _)
            (turn.session.billed _ _) (some result) _ (.inl rfl))
  | splitRejected turn error children stands splits =>
      have before : itemInHand source.control = [turn.session.work] := by
        simp only [stands, itemInHand]
      exact
        step_of_divide before rfl splits
          (pool_checkpoint_divide run (source.billed _ _)
            (turn.session.billed _ _) children none [])
  | splitTruncated turn completion children stands splits =>
      have before : itemInHand source.control = [turn.session.work] := by
        simp only [stands, itemInHand]
      exact
        step_of_divide before rfl splits
          (pool_checkpoint_divide run (source.refunded completion)
            (turn.session.refunded completion) children none [])
  | splitUnparsed turn completion children stands splits =>
      have before : itemInHand source.control = [turn.session.work] := by
        simp only [stands, itemInHand]
      exact
        step_of_divide before rfl splits
          (pool_checkpoint_divide run (source.billed _ _)
            (turn.session.billed _ _) children none [])
  | saved session closing stands =>
      exact step_of_pool_eq (pool_saveDone stands)
  | recordTool session call calls key stands pending affordable
  | ask session stands pending available open_
  | askFinal session reason stands pending available
  | execute session call key stands | result session call key text stands =>
      have before : itemInHand source.control = [session.work] := by
        simp only [stands, itemInHand]
      exact step_of_poolWith before (pool_of_itemInHand rfl)
  | dispatch turn stands | receive turn answer stands
  | recover turn completion stands first =>
      have before : itemInHand source.control = [turn.session.work] := by
        simp only [stands, itemInHand]
      exact step_of_poolWith before (pool_of_itemInHand rfl)

end Refinement

/-- When a run returns, what it completed and what it leaves are the leaves of the
forest, and what it completed has its result. -/
structure Accounted (run : PhaseRun Payload) (work : List (WorkItem Payload))
    (state : SchedulerState Payload) : Prop where
  leaves : ∃ leaves,
    (workForest run work).Leaves
        (WorkPool.Divided .split (statusOf state.checkpoints)) work leaves ∧
      leaves.Perm (state.outcome.completed ++ state.outcome.pending)
  completed : ∀ item ∈ state.outcome.completed,
    statusOf state.checkpoints item.key = some .done

def WorkSound (run : PhaseRun Payload) (work : List (WorkItem Payload))
    (state : SchedulerState Payload) : Prop :=
  match state.control with
  | .raised _ => True
  | .returned => Accounted run work state
  | _ => WorkPool.Sound (workForest run work) .split state.pool

theorem WorkSound.sound
    {run : PhaseRun Payload} {work : List (WorkItem Payload)}
    {state : SchedulerState Payload} (holds : WorkSound run work state)
    (running : ∀ error, state.control ≠ .raised error)
    (loops : state.control ≠ .returned) :
    WorkPool.Sound (workForest run work) .split state.pool := by
  unfold WorkSound at holds
  split at holds
  · rename_i error stands
    exact absurd stands (running error)
  · rename_i stands
    exact absurd stands loops
  · exact holds

theorem workSound_of_sound
    {run : PhaseRun Payload} {work : List (WorkItem Payload)}
    {state : SchedulerState Payload}
    (sound : WorkPool.Sound (workForest run work) .split state.pool)
    (loops : state.control ≠ .returned) : WorkSound run work state := by
  unfold WorkSound
  split
  · exact True.intro
  · rename_i stands
    exact absurd stands loops
  · exact sound

theorem workSound_start
    {run : PhaseRun Payload} {work : List (WorkItem Payload)}
    (distinct : (workForest run work).Distinct) (usage : Usage)
    {checkpoints : Dict String WorkCheckpoint}
    (closed :
      WorkPool.Closed (workForest run work) .split (statusOf checkpoints)) :
    WorkSound run work (start work usage checkpoints) := by
  refine workSound_of_sound ?_ (by simp [start])
  have begins :
      (start work usage checkpoints : SchedulerState Payload).pool =
        { unread := (workForest run work).roots
          open_ := 0
          settled := 0
          status := statusOf checkpoints } := by
    rfl
  rw [begins]
  exact WorkPool.sound_start distinct closed

/-- What `finish` leaves to later runs is what still waits. -/
theorem accounted_finish
    {run : PhaseRun Payload} {work : List (WorkItem Payload)}
    {source : SchedulerState Payload} {waiting : List (WorkItem Payload)}
    (sound : WorkPool.Sound (workForest run work) .split source.pool)
    (stands : source.control = .scheduling)
    (admitted :
      admitWaiting run source.usage source.outcome.completed.length source.waiting
        source.active = (waiting, [])) :
    Accounted run work (finish run { source with waiting, active := [] }) := by
  obtain ⟨opened, taken, sessions⟩ := admit_opened admitted
  obtain ⟨idle, noneOpened⟩ := List.append_eq_nil_iff.mp sessions.symm
  rw [List.map_eq_nil_iff] at noneOpened
  rw [noneOpened, List.map_nil, List.nil_append] at taken
  have read : source.pool.unread = [] := by
    simp only [pool, stands, unreadItems]
  have open_ : source.pool.open_ = ↑waiting := by
    simp [pool, stands, itemInHand, partsInHand, queued, idle, taken]
  have settled : source.pool.settled.map Prod.fst =
      ↑(source.outcome.completed ++ source.outcome.pending) := by
    simp [pool, stands, settledInHand, settledItems, Function.comp_def]
  constructor
  · obtain ⟨leaves, below, total⟩ := sound.conserved read
    refine ⟨leaves, below, ?_⟩
    rw [← Multiset.coe_eq_coe, total, open_, settled]
    simp only [finish, ← Multiset.coe_add]
    ac_rfl
  · intro item member
    have entry : (item, CheckpointStatus.done) ∈ source.pool.settled := by
      simp only [pool, stands, settledInHand, settledItems, Multiset.coe_nil,
        zero_add, Multiset.mem_add, Multiset.mem_coe]
      exact .inl (List.mem_map_of_mem member)
    exact (sound.marked _ entry).1

theorem workSound_steps
    {run : PhaseRun Payload} {work : List (WorkItem Payload)}
    (distinct : (workForest run work).Distinct)
    {source target : SchedulerState Payload} (holds : WorkSound run work source)
    (sourceLoops : source.control ≠ .returned)
    (sourceRuns : ∀ error, source.control ≠ .raised error)
    (steps : Steps run source target) :
    WorkSound run work target := by
  have sound := holds.sound sourceRuns sourceLoops
  by_cases loops : target.control = .returned
  · cases steps with
    | finish waiting stands admitted =>
        exact accounted_finish sound stands admitted
    | saved session closing stands =>
        cases closing <;> cases loops
    | keepResult session call key text stands =>
        unfold keepToolResult at loops
        dsimp only at loops
        split at loops <;> cases loops
    | _ =>
        cases loops
  · by_cases raises : ∃ error, target.control = .raised error
    · obtain ⟨error, stands⟩ := raises
      simp only [WorkSound, stands]
    · have running : ∀ error, target.control ≠ .raised error :=
        fun error stands => raises ⟨error, stands⟩
      exact
        workSound_of_sound (sound.step distinct (pool_step steps running loops))
          loops

theorem step_returned
    {run : PhaseRun Payload} {reply : Reply} {state : SchedulerState Payload}
    (stands : state.control = .returned) :
    step run reply state = none := by
  unfold step
  rw [stands]

theorem Reached.workSound
    {run : PhaseRun Payload} {work : List (WorkItem Payload)} {usage : Usage}
    {checkpoints : Dict String WorkCheckpoint} {state : SchedulerState Payload}
    (distinct : (workForest run work).Distinct)
    (closed :
      WorkPool.Closed (workForest run work) .split (statusOf checkpoints))
    (reached : Reached run work usage checkpoints state) :
    WorkSound run work state := by
  refine Reachable.invariant ?_ ?_ reached
  · rintro first rfl
    exact workSound_start distinct usage closed
  · intro reply source target holds stepped
    refine workSound_steps distinct holds ?_ ?_ (.of_step stepped)
    · intro stands
      rw [step_returned stands] at stepped
      cases stepped
    · intro error stands
      rw [step_raised stands] at stepped
      cases stepped

end SchedulerState

open SchedulerState

/-- The checkpoints that earlier runs on the same work can have saved: those of
other work, and those handed to the backend in a run that started from such. -/
inductive Resumable (run : PhaseRun Payload) (work : List (WorkItem Payload)) :
    Dict String WorkCheckpoint → Prop
  | fresh (checkpoints : Dict String WorkCheckpoint)
      (others : ∀ path item, (workForest run work).Node path item →
        Dict.get? checkpoints item.key = none) : Resumable run work checkpoints
  | later (earlier : PhaseRun Payload) (usage : Usage)
      (checkpoints : Dict String WorkCheckpoint)
      (state : SchedulerState Payload) (session : Session Payload)
      (closing : Closing Payload) (before : Resumable run work checkpoints)
      (samePhase : earlier.phase = run.phase) (sameSplit : earlier.split = run.split)
      (reached : Reached earlier work usage checkpoints state)
      (saves : state.control = .saving session closing) :
      Resumable run work state.checkpoints

theorem Resumable.closed
    {run : PhaseRun Payload} {work : List (WorkItem Payload)}
    {checkpoints : Dict String WorkCheckpoint}
    (distinct : (workForest run work).Distinct)
    (resumable : Resumable run work checkpoints) :
    WorkPool.Closed (workForest run work) .split (statusOf checkpoints) := by
  induction resumable with
  | fresh checkpoints others =>
      intro path parent parts position part above divides found marked
      have unknown := others _ _ (.part above divides found)
      simp only [statusOf, workForest] at marked
      rw [unknown] at marked
      exact absurd rfl marked
  | later earlier usage checkpoints state session closing before samePhase
      sameSplit reached saves closedBefore =>
      have same : workForest earlier work = workForest run work := by
        simp only [workForest, sameSplit]
      rw [← same] at distinct closedBefore ⊢
      have holds := reached.workSound distinct closedBefore
      simp only [WorkSound, saves] at holds
      intro path parent parts position part above divides found marked
      exact holds.closed above divides found marked

/-- The session a request to the model or to a tool is made for. -/
def requester : Control Payload → Option (Session Payload)
  | .completing turn => some turn.session
  | .executing session _ _ => some session
  | _ => none

/-- When a run returns, its completed and its pending items are the leaves of the
forest, each once; an item is completed only with its own result saved; and nothing
is asked of the model or of a tool for a key that has a checkpoint. -/
theorem work_conserved
    {run : PhaseRun Payload} {work : List (WorkItem Payload)} {usage : Usage}
    {checkpoints : Dict String WorkCheckpoint} {state : SchedulerState Payload}
    (distinct : (workForest run work).Distinct)
    (earlier : Resumable run work checkpoints)
    (reached : Reached run work usage checkpoints state) :
    (state.control = .returned →
      (∃ leaves,
        (workForest run work).Leaves
            (WorkPool.Divided .split (statusOf state.checkpoints)) work leaves ∧
          leaves.Perm (state.outcome.completed ++ state.outcome.pending)) ∧
        ∀ item ∈ state.outcome.completed,
          statusOf state.saved item.key = some .done) ∧
      ∀ session, requester state.control = some session →
        Dict.get? state.checkpoints session.work.key = none := by
  have holds := reached.workSound distinct (earlier.closed distinct)
  constructor
  · intro stands
    have persisted := reached.persisted
    simp only [WorkSound, stands] at holds
    simp only [Persisted, stands] at persisted
    rw [← persisted]
    exact ⟨holds.leaves, holds.completed⟩
  · intro session requests
    have working : itemInHand state.control = [session.work] := by
      generalize state.control = control at requests
      cases control <;> cases requests <;> rfl
    have loops : state.control ≠ .returned := by
      intro stands
      rw [stands] at working
      cases working
    have running : ∀ error, state.control ≠ .raised error := by
      intro error stands
      rw [stands] at working
      cases working
    have open_ : session.work ∈ state.pool.open_ := by
      rw [pool_of_itemInHand working]
      exact Multiset.mem_cons_self session.work state.queued
    have unmarked := (holds.sound running loops).fresh session.work open_
    simpa [pool, statusOf, workForest] using unmarked

def Control.isReturned : Control Payload → Bool
  | .returned => true
  | _ => false

/-- The texts `halve` makes of the first of two texts. -/
def textParts : List (WorkItem String) :=
  [{ key := "a0", payload := "x", parentKey := some "a" },
    { key := "a1", payload := "y", parentKey := some "a" }]

/-- The forest of two texts has four nodes. -/
theorem twoTexts_node {settings : ReviewSettings} {maxUnits : Nat} {path : List Nat}
    {item : WorkItem String}
    (node : (workForest (halvingRun settings maxUnits) twoTexts).Node path item) :
    (path, item) ∈ [([0], { key := "a", payload := "xy" }),
      ([1], { key := "b", payload := "z" }),
      ([0, 0], { key := "a0", payload := "x", parentKey := some "a" }),
      ([1, 0], { key := "a1", payload := "y", parentKey := some "a" })] := by
  induction node with
  | @root position item found =>
      match position with
      | 0 => simp [← Option.some.inj found]
      | 1 => simp [← Option.some.inj found]
      | later + 2 => cases found
  | @part path parent items position item above divides found inductionHypothesis =>
      simp only [List.mem_cons, Prod.mk.injEq, List.not_mem_nil, or_false] at inductionHypothesis
      rcases inductionHypothesis with ⟨rfl, rfl⟩ | ⟨rfl, rfl⟩ | ⟨rfl, rfl⟩ | ⟨rfl, rfl⟩
      · have parts : items = textParts := (Option.some.inj divides).symm
        subst parts
        match position with
        | 0 => simp [← Option.some.inj found]
        | 1 => simp [← Option.some.inj found]
        | later + 2 => cases found
      · cases divides
      · cases divides
      · cases divides

theorem twoTexts_distinct {settings : ReviewSettings} {maxUnits : Nat} :
    (workForest (halvingRun settings maxUnits) twoTexts).Distinct := by
  intro first second left right atLeft atRight same
  have keys : left.key = right.key := same
  have isLeft := twoTexts_node atLeft
  have isRight := twoTexts_node atRight
  simp only [List.mem_cons, Prod.mk.injEq, List.not_mem_nil, or_false] at isLeft isRight
  rcases isLeft with ⟨rfl, rfl⟩ | ⟨rfl, rfl⟩ | ⟨rfl, rfl⟩ | ⟨rfl, rfl⟩ <;>
    rcases isRight with ⟨rfl, rfl⟩ | ⟨rfl, rfl⟩ | ⟨rfl, rfl⟩ | ⟨rfl, rfl⟩ <;>
    first | rfl | simp at keys

/-- The first text is too long for the model, the second is reviewed, and the run ends when its
result is saved. -/
def splittingReplies : List Reply :=
  [.proceed, .proceed, .proceed, .proceed, .proceed, .acknowledged,
    .completed (.error { cls := .contextLengthError, message := "too long" }),
    .acknowledged, .acknowledged, .proceed, .proceed, .acknowledged,
    .completed (.ok { content := "fine" }), .acknowledged]

/-- What a later run finds: the first half is reviewed, the second one is over the limit. -/
def resumingReplies : List Reply :=
  [.proceed, .proceed, .proceed, .proceed, .proceed, .proceed, .proceed, .acknowledged,
    .completed (.ok { content := "fine" }), .acknowledged, .acknowledged, .proceed]

/-- Where the first run stands when it ends. -/
def brokenOff : SchedulerState String :=
  (Process.run (step (halvingRun {} 4)) splittingReplies (start twoTexts {} [])).getD
    { control := .returned }

/-- The first text was split and the second is done, so the later run completes the second text
and the first half, and the other half is left. -/
theorem work_conserved_two_texts :
    ∃ state,
      Process.run (step (halvingRun {} 2)) resumingReplies
          (start twoTexts brokenOff.usage brokenOff.checkpoints) = some state ∧
        state.outcome.completed.map WorkItem.key = ["b", "a0"] ∧
        state.outcome.pending.map WorkItem.key = ["a1"] ∧
        (∃ leaves,
          (workForest (halvingRun {} 2) twoTexts).Leaves
              (WorkPool.Divided .split (statusOf state.checkpoints)) twoTexts leaves ∧
            leaves.Perm (state.outcome.completed ++ state.outcome.pending)) ∧
        ∀ item ∈ state.outcome.completed, statusOf state.saved item.key = some .done := by
  have ran : Process.run (step (halvingRun {} 4)) splittingReplies (start twoTexts {} []) =
      some brokenOff :=
    rfl
  obtain ⟨session, saves⟩ : ∃ session, brokenOff.control = .saving session .done :=
    ⟨_, rfl⟩
  have checked : (Process.run (step (halvingRun {} 2)) resumingReplies
      (start twoTexts brokenOff.usage brokenOff.checkpoints)).any (fun state =>
        state.control.isReturned && state.outcome.completed.map WorkItem.key == ["b", "a0"] &&
          state.outcome.pending.map WorkItem.key == ["a1"]) = true := by
    decide +kernel
  obtain ⟨state, resumed, ends⟩ := (Option.any_eq_true ..).mp checked
  simp only [Bool.and_eq_true, beq_iff_eq] at ends
  obtain ⟨⟨stands, completed⟩, pending⟩ := ends
  have returned : state.control = .returned := by
    cases stood : state.control <;> first | rfl | (rw [stood] at stands; cases stands)
  have earlier : Resumable (halvingRun {} 2) twoTexts brokenOff.checkpoints :=
    .later (halvingRun {} 4) {} [] brokenOff session .done (.fresh [] fun _ _ _ => rfl) rfl rfl
      ⟨_, _, rfl, ran⟩ saves
  have conserved := work_conserved twoTexts_distinct earlier ⟨_, _, rfl, resumed⟩
  obtain ⟨leaves, done⟩ := conserved.1 returned
  exact ⟨state, resumed, completed, pending, leaves, done⟩

end PeReview.Scheduling
