import Mathlib.Algebra.BigOperators.Group.List.Basic
import Mathlib.Algebra.Order.Ring.Rat
import Mathlib.Data.Nat.Cast.Order.Ring
import PeReview.Review.Progress

/-!
# Review settings

`ReviewSettings` of `config.py` as far as the review reads it, and the operational
budget of `review/scheduling.py`.
-/

namespace PeReview

/-- The share of the verifier is one of the whole. -/
theorem oneThird_inUnit : (0 : Rat) ≤ 1 / 3 ∧ (1 / 3 : Rat) ≤ 1 := by
  decide +kernel

/-- The settings the identity of a review leaves out: they may change between two
attempts at one review. -/
structure ReviewLimits where
  maxCandidateChunks : Nat := 12
  maxLlmCallsPerJob : Nat := 30
  maxToolCallsPerJob : Nat := 50
  verifierBudgetFraction : Rat := 1 / 3
  fractionInUnit :
    0 ≤ verifierBudgetFraction ∧ verifierBudgetFraction ≤ 1 := by
      exact oneThird_inUnit
  deriving DecidableEq, Repr

/-- `ReviewSettings`. -/
structure ReviewSettings extends ReviewLimits where
  outputLanguage : String := "ko-KR"
  maxFindings : Nat := 8
  minConfidence : Rat := 82 / 100
  maxToolRounds : Nat := 8
  maxDiffChunkChars : Nat := 70000
  maxCandidateFindingsTotal : Nat := 64
  deriving DecidableEq, Repr

namespace Usage

def chargeCall (usage : Usage) : Usage :=
  { usage with llmCalls := usage.llmCalls + 1 }

def chargeTool (usage : Usage) : Usage :=
  { usage with toolCalls := usage.toolCalls + 1 }

/-- `_tokens`, of one of the two ledgers. -/
def tokens (usage : Usage) (inputTokens outputTokens : Option Nat) : Usage :=
  { usage with
    inputTokens := usage.inputTokens + inputTokens.getD 0
    outputTokens := usage.outputTokens + outputTokens.getD 0 }

/-- `_refund_incomplete_llm_usage`, of one of the two ledgers. -/
def refund (usage : Usage) (inputTokens outputTokens : Option Nat) : Usage :=
  { usage with
    llmCalls := usage.llmCalls - 1
    inputTokens := usage.inputTokens - inputTokens.getD 0
    outputTokens := usage.outputTokens - outputTokens.getD 0 }

instance : Add Usage :=
  ⟨Usage.add⟩

instance : Zero Usage :=
  ⟨{}⟩

@[simp]
theorem llmCalls_add (usage other : Usage) :
    (usage + other).llmCalls = usage.llmCalls + other.llmCalls :=
  rfl

@[simp]
theorem toolCalls_add (usage other : Usage) :
    (usage + other).toolCalls = usage.toolCalls + other.toolCalls :=
  rfl

@[simp]
theorem inputTokens_add (usage other : Usage) :
    (usage + other).inputTokens = usage.inputTokens + other.inputTokens :=
  rfl

@[simp]
theorem outputTokens_add (usage other : Usage) :
    (usage + other).outputTokens = usage.outputTokens + other.outputTokens :=
  rfl

@[ext]
theorem ext {usage other : Usage} (llmCalls : usage.llmCalls = other.llmCalls)
    (toolCalls : usage.toolCalls = other.toolCalls)
    (inputTokens : usage.inputTokens = other.inputTokens)
    (outputTokens : usage.outputTokens = other.outputTokens) :
    usage = other := by
  cases usage
  cases other
  simp_all

/-- Charges add up. -/
instance : AddCommMonoid Usage where
  add_assoc first second third := by
    ext <;> simp [Nat.add_assoc]
  zero_add usage := by
    ext <;> exact Nat.zero_add _
  add_zero usage := by
    ext <;> rfl
  add_comm first second := by
    ext <;> simp [Nat.add_comm]
  nsmul := nsmulRec

end Usage

namespace ReviewLimits

/-- `math.ceil(limit * verifier_budget_fraction)`, kept from the candidate phase. -/
def reserve (limits : ReviewLimits) (phase : Phase) (limit : Nat) : Nat :=
  match phase with
  | .candidate => (limit * limits.verifierBudgetFraction).ceil.toNat
  | .verification => 0

/-- `ReviewBudget.remaining_calls`. -/
def remainingCalls (limits : ReviewLimits) (phase : Phase) (usage : Usage) :
    Nat :=
  limits.maxLlmCallsPerJob - limits.reserve phase limits.maxLlmCallsPerJob -
    usage.llmCalls

/-- `ReviewBudget.remaining_tools`. -/
def remainingTools (limits : ReviewLimits) (phase : Phase) (usage : Usage) :
    Nat :=
  limits.maxToolCallsPerJob - limits.reserve phase limits.maxToolCallsPerJob -
    usage.toolCalls

theorem reserve_le (limits : ReviewLimits) (phase : Phase) (limit : Nat) :
    limits.reserve phase limit ≤ limit := by
  cases phase with
  | verification =>
      exact Nat.zero_le limit
  | candidate =>
      have product :
          (limit : Rat) * limits.verifierBudgetFraction ≤ ((limit : Int) : Rat) := by
        calc
          (limit : Rat) * limits.verifierBudgetFraction ≤ limit * 1 :=
            mul_le_mul_of_nonneg_left limits.fractionInUnit.2 (Nat.cast_nonneg limit)
          _ = ((limit : Int) : Rat) := by
            simp
      have ceiling := Rat.ceil_le_iff.mpr product
      simp only [reserve]
      omega

end ReviewLimits

end PeReview
