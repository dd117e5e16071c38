import PeReview.Review.Native.Engine

/-!
# Every phase of a review ends

Both split functions of the engine divide what they split, so the scheduler runs
through its work in finitely many steps.
-/

namespace PeReview.Native

open PeReview.Data PeReview.Process PeReview.Scheduling

variable {Payload Content : Type}

/-- A split function makes several smaller items of one, and together they have its
content. -/
structure Shrinks (content : Payload → List Content)
    (split : WorkItem Payload → Except PyError (List (WorkItem Payload))) :
    Prop extends Divides content split where
  smaller : ∀ item children, split item = .ok children →
    ∀ child ∈ children, size content child < size content item

theorem shrinks_of_divides {content : Payload → List Content}
    {split : WorkItem Payload → Except PyError (List (WorkItem Payload))}
    (divides : Divides content split) : Shrinks content split where
  toDivides := divides
  smaller _ _ splits := divides.smaller splits

/-- What it means that the runs of a phase end, whatever they work on, whatever they
have been charged and whatever was done before. -/
structure Ends (run : PhaseRun Payload) : Prop where
  /-- No run goes on forever. -/
  finite : ∀ (work : List (WorkItem Payload)) (usage : Usage)
    (checkpoints : Dict String WorkCheckpoint) (replies : Nat → Reply)
    (trace : Nat → SchedulerState Payload),
    trace 0 = .start work usage checkpoints →
      ¬∀ moment,
        SchedulerState.step run (replies moment) (trace moment) =
          some (trace (moment + 1))
  /-- A run that cannot go on has returned or raised. -/
  left : ∀ state, (∀ reply, SchedulerState.step run reply state = none) →
    state.control = .returned ∨ ∃ error, state.control = .raised error
  /-- Every session has few requests, and no more tool turns than it asked for. -/
  bounded : ∀ (work : List (WorkItem Payload)) (usage : Usage)
    (checkpoints : Dict String WorkCheckpoint) (state : SchedulerState Payload),
    SchedulerState.Reached run work usage checkpoints state →
      ∀ session ∈
          SchedulerState.sessionInHand state.control ++
            state.closed.map Prod.fst ++ state.active,
        session.rounds ≤ run.settings.maxToolRounds ∧
          session.calls ≤ run.settings.maxToolRounds + 2 ∧
          SchedulerState.toolResults session.transcript +
              SchedulerState.requestedTools (run.messages session.work) ≤
            SchedulerState.requestedTools session.transcript +
              SchedulerState.toolResults (run.messages session.work)

theorem ends_of_divides {run : PhaseRun Payload} {content : Payload → List Content}
    (divides : Divides content run.split) : Ends run where
  finite _ _ _ _ _ begins runs :=
    SchedulerState.no_infinite_run divides begins runs
  left _ stuck := SchedulerState.left_of_stuck stuck
  bounded _ _ _ _ reached _ live := reached.session_bounded live

/-- Both phases of every review end, since their splits shrink the work. -/
theorem review_phases_end (review : NativeReview) (attempt : Attempt)
    (progress : ReviewProgress) :
    (Shrinks DiffChunk.text (review.candidateRun attempt).split ∧
        Ends (review.candidateRun attempt)) ∧
      Shrinks (fun findings : List Finding => findings)
          (review.verificationRun attempt progress).split ∧
        Ends (review.verificationRun attempt progress) := by
  have chunks := divides_splitCandidateWork review.hash
  have batches := divides_splitVerificationWork review.hash
  exact
    ⟨⟨shrinks_of_divides chunks, ends_of_divides chunks⟩, shrinks_of_divides batches,
      ends_of_divides batches⟩

end PeReview.Native
