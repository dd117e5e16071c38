import PeReview.Data.Except
import PeReview.Domain

/-!
# The job state machine

`jobs/state_machine.py`.
-/

namespace PeReview

open PeReview.Data

/-- `_ALLOWED_TRANSITIONS`, which has no entry for `SKIPPED_SCOPE`. -/
def allowedTransitions : JobState → Option (List JobState)
  | .received =>
      some [.fetching, .retryWait, .failedTransient, .failedPermanent,
        .superseded]
  | .fetching =>
      some [.reviewing, .retryWait, .failedTransient, .failedPermanent,
        .superseded]
  | .reviewing =>
      some [.validating, .retryWait, .failedTransient, .failedPermanent,
        .superseded]
  | .validating =>
      some [.readyToPublish, .retryWait, .failedTransient, .failedPermanent,
        .superseded]
  | .readyToPublish =>
      some [.publishing, .retryWait, .failedTransient, .failedPermanent,
        .superseded]
  | .publishing =>
      some [.done, .readyToPublish, .retryWait, .failedTransient,
        .failedPermanent, .superseded]
  | .retryWait =>
      some [.fetching, .reviewing, .validating, .readyToPublish, .publishing,
        .failedPermanent, .superseded]
  | .failedTransient =>
      some [.retryWait, .fetching, .reviewing, .validating, .readyToPublish,
        .publishing, .failedPermanent, .superseded]
  | .failedPermanent => some []
  | .superseded => some []
  | .done => some []
  | .skippedScope => none

/-- `can_transition`. -/
def canTransition (current target : JobState) : Except PyError Bool :=
  if current = target then .ok true
  else
    match allowedTransitions current with
    | none => .error { cls := .keyError, message := current.value }
    | some targets => .ok (targets.contains target)

/-- `require_transition`. -/
def requireTransition (current target : JobState) : Except PyError Unit := do
  let possible ← canTransition current target
  Except.require possible
    { cls := .invalidJobTransition
      message := "invalid job transition: " ++ current.value ++ " -> " ++
        target.value }

/-- `valid_retry_target`. -/
def validRetryTarget : JobState → Bool
  | .fetching | .reviewing | .validating | .readyToPublish | .publishing => true
  | _ => false

/-- The moves `require_transition` lets pass. -/
def mayMove (current target : JobState) : Bool :=
  current = target || ((allowedTransitions current).getD []).contains target

@[simp]
theorem requireTransition_eq_ok {current target : JobState} {value : Unit} :
    requireTransition current target = .ok value ↔
      mayMove current target = true := by
  unfold requireTransition canTransition mayMove
  by_cases same : current = target
  · simp [same]
  · cases known : allowedTransitions current with
    | none => simp [same]
    | some targets => simp [same]

theorem not_isTerminal_of_validRetryTarget {state : JobState}
    (valid : validRetryTarget state) :
    state.isTerminal = false := by
  cases state <;> simp_all [validRetryTarget, JobState.isTerminal]

end PeReview
