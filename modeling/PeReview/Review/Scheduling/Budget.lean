import PeReview.Review.Scheduling.Slots

/-!
# What a phase may be charged with

A run that starts within the budget of its phase stays within it, whatever the model
asks for: a request is only dispatched when a call remains, and a refund is given
for the request that it follows.
-/

namespace PeReview.Scheduling

open PeReview.Data PeReview.Process

variable {Payload : Type}

def PhaseRun.toolCap (run : PhaseRun Payload) : Nat :=
  run.settings.maxToolCallsPerJob -
    run.settings.reserve run.phase run.settings.maxToolCallsPerJob

theorem remainingTools_eq (run : PhaseRun Payload) (usage : Usage) :
    run.settings.remainingTools run.phase usage = run.toolCap - usage.toolCalls :=
  rfl

structure PhaseRun.Within (run : PhaseRun Payload) (usage : Usage) : Prop where
  calls : usage.llmCalls ≤ run.callCap
  tools : usage.toolCalls ≤ run.toolCap

namespace SchedulerState

def Affordable (run : PhaseRun Payload) (state : SchedulerState Payload) : Prop :=
  match state.control with
  | .recordingTool _ _ _ => state.usage.toolCalls < run.toolCap
  | _ => True

structure Capped (run : PhaseRun Payload) (state : SchedulerState Payload) :
    Prop where
  within : run.Within state.usage
  affordable : Affordable run state

/-- Charges that do not grow stay within the caps. -/
theorem Capped.of_le
    {run : PhaseRun Payload} {source target : SchedulerState Payload}
    (capped : Capped run source)
    (calls : target.usage.llmCalls ≤ source.usage.llmCalls)
    (tools : target.usage.toolCalls = source.usage.toolCalls)
    (affordable : Affordable run target) :
    Capped run target where
  within :=
    { calls := calls.trans capped.within.calls
      tools := tools.trans_le capped.within.tools }
  affordable := affordable

theorem capped_appendToolResult
    {run : PhaseRun Payload} {state : SchedulerState Payload}
    {session : Session Payload} {call : ToolCall} {text : String}
    (capped : Capped run state) :
    Capped run (state.appendToolResult session call text) :=
  capped.of_le (Nat.le_refl _) rfl True.intro

theorem capped_steps
    {run : PhaseRun Payload} {source target : SchedulerState Payload}
    (reserved : Reserved run source) (capped : Capped run source)
    (steps : Steps run source target) :
    Capped run target := by
  cases steps with
  | recordTool session call calls key stands pending affordable =>
      refine capped.of_le (Nat.le_refl _) rfl ?_
      rw [remainingTools_eq] at affordable
      simp only [Affordable]
      omega
  | dispatch turn stands =>
      have covered := reserved.covered
      have needs := turn.need_pos
      simp only [Covered, stands] at covered
      refine ⟨⟨?_, capped.within.tools⟩, True.intro⟩
      change source.usage.llmCalls + 1 ≤ run.callCap
      omega
  | execute session call key stands =>
      have affordable := capped.affordable
      simp only [Affordable, stands] at affordable
      exact ⟨⟨capped.within.calls, affordable⟩, True.intro⟩
  | splitTruncated turn completion children stands splits
  | recover turn completion stands first =>
      exact capped.of_le (Nat.sub_le _ _) rfl True.intro
  | keepResult session call key text stands =>
      unfold keepToolResult
      dsimp only
      split
      · exact capped_appendToolResult capped
      · exact capped_appendToolResult capped
  | saved session closing stands =>
      cases closing with
      | done | stopped | split children =>
          exact capped.of_le (Nat.le_refl _) rfl True.intro
  | raised usage outcome error calls tools =>
      exact capped.of_le calls tools True.intro
  | _ =>
      exact capped.of_le (Nat.le_refl _) rfl True.intro

theorem Reached.within
    {run : PhaseRun Payload} {work : List (WorkItem Payload)} {usage : Usage}
    {checkpoints : Dict String WorkCheckpoint} {state : SchedulerState Payload}
    (affordable : run.Within usage)
    (reached : Reached run work usage checkpoints state) :
    run.Within state.usage := by
  let kept (state : SchedulerState Payload) : Prop :=
    Reserved run state ∧ Capped run state
  have both : kept state := by
    refine reached.invariant ?_ ?_
    · exact ⟨reserved_start run work usage checkpoints, affordable, True.intro⟩
    · rintro source target ⟨reserved, capped⟩ steps
      exact ⟨reserved_steps reserved steps, capped_steps reserved capped steps⟩
  exact both.2.within

end SchedulerState

end PeReview.Scheduling
