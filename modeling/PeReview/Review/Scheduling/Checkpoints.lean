import PeReview.Review.Scheduling.Ledger
import PeReview.Review.Scheduling.Work

/-!
# The checkpoints of a run

A run only adds checkpoints, each for an item of its forest that has none, and one
for each session it closes.
-/

namespace PeReview.Data

/-- A key that is absent goes to the end. -/
theorem Dict.set_eq_append {Key Value : Type} [DecidableEq Key]
    {dict : Dict Key Value} {key : Key} (value : Value)
    (absent : Dict.get? dict key = none) :
    Dict.set dict key value = dict ++ [(key, value)] := by
  induction dict with
  | nil =>
      rfl
  | cons item rest inductionHypothesis =>
      obtain ⟨first, old⟩ := item
      simp only [Dict.get?] at absent
      split at absent
      · cases absent
      · rename_i different
        simp only [Dict.set, if_neg different, inductionHypothesis absent,
          List.cons_append]

/-- A key that is absent is none of the keys. -/
theorem Dict.get?_eq_none_iff {Key Value : Type} [DecidableEq Key]
    {dict : Dict Key Value} {key : Key} :
    Dict.get? dict key = none ↔ key ∉ dict.map Prod.fst := by
  induction dict with
  | nil =>
      simp
  | cons item rest inductionHypothesis =>
      obtain ⟨first, old⟩ := item
      by_cases same : first = key
      · simp [Dict.get?, same]
      · simp [Dict.get?, same, inductionHypothesis, Ne.symm same]

end PeReview.Data

namespace PeReview.Scheduling

open PeReview.Data PeReview.Process

variable {Payload : Type}

namespace SchedulerState

/-- A step closes a session: it gives the session's item a checkpoint. -/
structure Closes (run : PhaseRun Payload) (source target : SchedulerState Payload)
    (session : Session Payload) (closing : Closing Payload)
    (checkpoint : WorkCheckpoint) : Prop where
  before : itemInHand source.control = [session.work]
  after : target.control = .saving session closing
  closedBy : ClosedBy run session closing checkpoint
  saved : target.saved = source.saved
  checkpoints :
    target.checkpoints =
      Dict.set source.checkpoints session.work.key checkpoint

theorem closes_checkpoint {run : PhaseRun Payload}
    {source state : SchedulerState Payload} {session : Session Payload}
    {closing : Closing Payload} {result : Option ParsedReview}
    {limitations : List String}
    (before : itemInHand source.control = [session.work])
    (saved : state.saved = source.saved)
    (checkpoints : state.checkpoints = source.checkpoints) :
    Closes run source (state.checkpoint run session closing result limitations)
      session closing (checkpointOf run session closing result limitations) where
  before := before
  after := rfl
  closedBy := ⟨rfl, rfl, rfl⟩
  saved := saved
  checkpoints := by
    rw [← checkpoints]
    rfl

/-- A step closes a session or leaves the checkpoints alone. -/
theorem steps_checkpoints {run : PhaseRun Payload}
    {source target : SchedulerState Payload} (steps : Steps run source target) :
    (target.checkpoints = source.checkpoints ∧ target.closed = []) ∨
      ∃ session closing checkpoint,
        Closes run source target session closing checkpoint := by
  cases steps with
  | keepResult session call key text stands =>
      refine .inl ?_
      unfold keepToolResult
      dsimp only
      split <;> exact ⟨rfl, rfl⟩
  | saved session closing stands =>
      cases closing <;> exact .inl ⟨rfl, rfl⟩
  | stop session stands pending exhausted =>
      have before : itemInHand source.control = [session.work] := by
        simp only [stands, itemInHand]
      exact .inr ⟨_, _, _, closes_checkpoint before rfl rfl⟩
  | splitRejected turn error children stands splits
  | splitTruncated turn completion children stands splits
  | splitUnparsed turn completion children stands splits
  | done turn completion result stands parsed =>
      have before : itemInHand source.control = [turn.session.work] := by
        simp only [stands, itemInHand]
      exact .inr ⟨_, _, _, closes_checkpoint before rfl rfl⟩
  | _ =>
      exact .inl ⟨rfl, rfl⟩

/-- The forest of a run can be resumed from the checkpoints it starts with. -/
structure Resumes (run : PhaseRun Payload) (work : List (WorkItem Payload))
    (checkpoints : Dict String WorkCheckpoint) : Prop where
  distinct : (workForest run work).Distinct
  closed :
    WorkPool.Closed (workForest run work) .split (statusOf checkpoints)

/-- The item of a session the run works on is one of the forest, and it has no
checkpoint. -/
theorem WorkSound.inHand {run : PhaseRun Payload} {work : List (WorkItem Payload)}
    {state : SchedulerState Payload} {item : WorkItem Payload}
    (holds : WorkSound run work state)
    (working : itemInHand state.control = [item]) :
    (∃ path, (workForest run work).Node path item) ∧
      Dict.get? state.checkpoints item.key = none := by
  have loops : state.control ≠ .returned := by
    intro stands
    rw [stands] at working
    cases working
  have running : ∀ error, state.control ≠ .raised error := by
    intro error stands
    rw [stands] at working
    cases working
  have sound := holds.sound running loops
  have open_ : item ∈ state.pool.open_ := by
    rw [pool_of_itemInHand working]
    exact Multiset.mem_cons_self item state.queued
  have inHand : item ∈ state.pool.items :=
    Multiset.mem_add.mpr (.inl (Multiset.mem_add.mpr (.inr open_)))
  obtain ⟨path, exposed⟩ := sound.cut.exposed item inHand
  have unmarked := sound.fresh item open_
  refine ⟨⟨path, exposed.node⟩, ?_⟩
  simpa [pool, statusOf, workForest] using unmarked

/-- What a run has done to the checkpoints it started with: nothing outside of its
forest, and nothing below an item that is whole; the checkpoint that is being saved is
the first of its item; and when the run returns, every item that is done is among the
completed ones. -/
structure Extends (run : PhaseRun Payload) (work : List (WorkItem Payload))
    (checkpoints : Dict String WorkCheckpoint) (state : SchedulerState Payload) :
    Prop where
  frame : ∀ key,
    (∀ path item, (workForest run work).Node path item → item.key ≠ key) →
      Dict.get? state.checkpoints key = Dict.get? checkpoints key
  closed :
    WorkPool.Closed (workForest run work) .split (statusOf state.checkpoints)
  unsaved : ∀ session closing, state.control = .saving session closing →
    Dict.get? state.saved session.work.key = none
  completes : state.control = .returned → ∀ path item,
    (workForest run work).Node path item →
      statusOf state.checkpoints item.key = some .done →
        item ∈ state.outcome.completed

/-- What is done when a run returns has been completed in it or read back. -/
theorem completes_finish {run : PhaseRun Payload} {work : List (WorkItem Payload)}
    {source : SchedulerState Payload} {waiting : List (WorkItem Payload)}
    (sound : WorkPool.Sound (workForest run work) .split source.pool)
    (stands : source.control = .scheduling) {path : List Nat} {item : WorkItem Payload}
    (node : (workForest run work).Node path item)
    (done : statusOf source.checkpoints item.key = some .done) :
    item ∈ (finish run { source with waiting, active := [] }).outcome.completed := by
  have read : source.pool.unread = [] := by
    simp only [pool, stands, unreadItems]
  obtain ⟨leaves, below, total⟩ := sound.conserved read
  have marked : source.pool.status ((workForest run work).key item) = some .done :=
    done
  have known : source.pool.status ((workForest run work).key item) ≠ none := by
    simp [marked]
  have undivided : ¬WorkPool.Divided .split source.pool.status
      ((workForest run work).key item) := by
    simp [WorkPool.Divided, marked]
  have leaf : item ∈ leaves :=
    below.mem_of_exposed (WorkPool.Closed.exposed sound.closed node known) undivided
  have inHand : item ∈ source.pool.open_ + source.pool.settled.map Prod.fst := by
    rw [← total]
    exact leaf
  rcases Multiset.mem_add.mp inHand with open_ | settled
  · exact absurd (sound.fresh item open_) known
  · obtain ⟨entry, member, rfl⟩ := Multiset.mem_map.mp settled
    have status := (sound.marked entry member).1
    rw [marked] at status
    simp only [pool, stands, settledInHand, settledItems, Multiset.coe_nil, zero_add,
      Multiset.mem_add, Multiset.mem_coe, List.mem_map] at member
    rcases member with ⟨other, completed, rfl⟩ | ⟨other, pending, rfl⟩
    · exact completed
    · cases status

theorem extends_steps {run : PhaseRun Payload} {work : List (WorkItem Payload)}
    {checkpoints : Dict String WorkCheckpoint}
    {source target : SchedulerState Payload} (holds : WorkSound run work source)
    (after : WorkSound run work target) (persisted : Persisted run source)
    (extends_ : Extends run work checkpoints source)
    (steps : Steps run source target) :
    Extends run work checkpoints target := by
  rcases steps_checkpoints steps with
    ⟨same, open_⟩ | ⟨session, closing, checkpoint, closes⟩
  · refine ⟨?_, ?_, ?_, ?_⟩
    · rw [same]
      exact extends_.frame
    · rw [same]
      exact extends_.closed
    · intro session closing stands
      unfold closed at open_
      rw [stands] at open_
      cases open_
    · intro returned path item node done
      rw [same] at done
      cases steps with
      | finish waiting stands admitted =>
          refine completes_finish (holds.sound ?_ ?_) stands node done
          · intro error raised
            cases stands.symm.trans raised
          · intro ended
            cases stands.symm.trans ended
      | saved session closing stands =>
          cases closing <;> cases returned
      | keepResult session call key text stands =>
          unfold keepToolResult at returned
          dsimp only at returned
          split at returned <;> cases returned
      | _ =>
          cases returned
  · obtain ⟨⟨path, node⟩, unmarked⟩ := holds.inHand closes.before
    refine ⟨?_, ?_, ?_, ?_⟩
    · intro key others
      rw [closes.checkpoints,
        Dict.get?_set_of_ne _ _ (others path session.work node)]
      exact extends_.frame key others
    · simp only [WorkSound, closes.after] at after
      exact after.closed
    · intro other closing_ stands
      cases closes.after.symm.trans stands
      have saved : source.checkpoints = source.saved := by
        have before := closes.before
        unfold Persisted at persisted
        split at persisted
        · rename_i stands
          rw [stands] at before
          cases before
        · rename_i stands
          rw [stands] at before
          cases before
        · exact persisted
      rw [closes.saved, ← saved]
      exact unmarked
    · intro returned
      cases closes.after.symm.trans returned

theorem Reached.extends_ {run : PhaseRun Payload} {work : List (WorkItem Payload)}
    {usage : Usage} {checkpoints : Dict String WorkCheckpoint}
    {state : SchedulerState Payload} (resumes : Resumes run work checkpoints)
    (reached : Reached run work usage checkpoints state) :
    Extends run work checkpoints state := by
  let kept (state : SchedulerState Payload) : Prop :=
    WorkSound run work state ∧ Persisted run state ∧
      Extends run work checkpoints state
  have all : kept state := by
    refine Reachable.invariant ?_ ?_ reached
    · rintro first rfl
      refine ⟨workSound_start resumes.distinct usage resumes.closed, ?_, ?_⟩
      · exact (rfl : checkpoints = checkpoints)
      · exact
          { frame := fun _ _ => rfl
            closed := resumes.closed
            unsaved := fun _ _ stands => nomatch stands
            completes := fun returned => nomatch returned }
    · rintro reply source target ⟨holds, persisted, extended⟩ stepped
      have steps := Steps.of_step stepped
      have after : WorkSound run work target := by
        refine workSound_steps resumes.distinct holds ?_ ?_ steps
        · intro stands
          rw [step_returned stands] at stepped
          cases stepped
        · intro error stands
          rw [step_raised stands] at stepped
          cases stepped
      exact
        ⟨after, persisted_steps persisted steps,
          extends_steps holds after persisted extended steps⟩
  exact all.2.2

/-- The forest can be resumed from the checkpoints of a run. -/
theorem Reached.resumes {run : PhaseRun Payload} {work : List (WorkItem Payload)}
    {usage : Usage} {checkpoints : Dict String WorkCheckpoint}
    {state : SchedulerState Payload} (resumes : Resumes run work checkpoints)
    (reached : Reached run work usage checkpoints state) :
    Resumes run work state.checkpoints where
  distinct := resumes.distinct
  closed := (reached.extends_ resumes).closed

/-- When a run returns and leaves nothing, all its leaves are done. -/
theorem Reached.finished {run : PhaseRun Payload} {work : List (WorkItem Payload)}
    {usage : Usage} {checkpoints : Dict String WorkCheckpoint}
    {state : SchedulerState Payload} (resumes : Resumes run work checkpoints)
    (reached : Reached run work usage checkpoints state)
    (isOver : state.control = .returned) (nothing : state.outcome.pending = []) :
    ∃ leaves,
      WorkPool.Finished (workForest run work) .split .done
        (statusOf state.checkpoints) leaves := by
  have holds := reached.workSound resumes.distinct resumes.closed
  simp only [WorkSound, isOver] at holds
  obtain ⟨leaves, below, same⟩ := holds.leaves
  rw [nothing, List.append_nil] at same
  have different : CheckpointStatus.done ≠ .split := by
    decide
  refine ⟨leaves, ?_⟩
  refine
    WorkPool.finished_of_leaves different (reached.extends_ resumes).closed below ?_
  intro leaf member
  exact holds.completed leaf (same.subset member)

end SchedulerState

end PeReview.Scheduling
