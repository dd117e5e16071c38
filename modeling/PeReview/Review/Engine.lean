import PeReview.Process.Program
import PeReview.Review.Progress

/-!
# The review engine, as the worker sees it

The worker hands the engine a context, a progress backend and a tool trace.
Everything else the engine does is a conversation with a model and with read-only
tools, which changes nothing the worker or another worker can see.
-/

namespace PeReview

open PeReview.Process

/-- What an engine may ask for while it reviews. -/
inductive EngineCall
  | load (inputKey : String)
  | save (progress : ReviewProgress)
  | recordInvocation (invocation : Invocation)
  | totals
  | legacy
  | toolTrace (event : String)
  /-- A request to the model provider or to a read-only repository tool. -/
  | ask (request : String)
  deriving DecidableEq, Repr

/-- The answers; a failing backend or provider raises. -/
def EngineAnswer : EngineCall → Type
  | .load _ => Except PyError (Option ReviewProgress)
  | .save _ => Except PyError Unit
  | .recordInvocation _ => Except PyError Unit
  | .totals => Except PyError InvocationTotals
  | .legacy => Except PyError (Bool × Usage)
  | .toolTrace _ => Unit
  | .ask _ => Except PyError String

abbrev EngineProgram (Value : Type) : Type :=
  Program EngineCall EngineAnswer (Except PyError Value)

/-- `engine.review` and `engine.recover_completed` of the engine for one output
language. -/
structure ReviewEngine where
  review : ReviewContext → EngineProgram ReviewResult
  recoverCompleted : ReviewContext → EngineProgram (Option ReviewResult)

end PeReview
