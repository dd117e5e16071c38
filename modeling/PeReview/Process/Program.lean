/-!
# Interaction programs

A program either is done or issues one call and continues with its answer.
Calls are the only places where the rest of the world can be observed, so a
program of this type fixes which calls are atomic.  Exceptions are layered on
top with `ExceptT`.
-/

namespace PeReview.Process

/-- Programs over calls `Call`, whose answers have type `Answer call`. -/
inductive Program (Call : Type) (Answer : Call → Type) (Value : Type) : Type
  | done (value : Value)
  | call (request : Call) (next : Answer request → Program Call Answer Value)

namespace Program

variable {Call : Type} {Answer : Call → Type} {Value Final : Type}

def bind :
    Program Call Answer Value → (Value → Program Call Answer Final) →
      Program Call Answer Final
  | .done value, rest => rest value
  | .call request next, rest =>
      .call request fun answer => (next answer).bind rest

instance : Monad (Program Call Answer) where
  pure := .done
  bind := bind

def perform (request : Call) : Program Call Answer (Answer request) :=
  .call request .done

@[simp]
theorem pure_eq_done (value : Value) :
    (pure value : Program Call Answer Value) = .done value :=
  rfl

@[simp]
theorem bind_eq (program : Program Call Answer Value)
    (rest : Value → Program Call Answer Final) :
    program >>= rest = program.bind rest :=
  rfl

@[simp]
theorem bind_done (value : Value) (rest : Value → Program Call Answer Final) :
    (Program.done value : Program Call Answer Value).bind rest = rest value :=
  rfl

@[simp]
theorem bind_call (request : Call)
    (next : Answer request → Program Call Answer Value)
    (rest : Value → Program Call Answer Final) :
    (Program.call request next).bind rest =
      .call request fun answer => (next answer).bind rest :=
  rfl

def isDone : Program Call Answer Value → Bool
  | .done _ => true
  | .call _ _ => false

def request? : Program Call Answer Value → Option Call
  | .done _ => none
  | .call request _ => some request

theorem request?_eq_some {program : Program Call Answer Value} {request : Call} :
    program.request? = some request ↔ ∃ next, program = .call request next := by
  cases program with
  | done value => simp [request?]
  | call other next =>
      constructor
      · intro same
        cases same
        exact ⟨next, rfl⟩
      · rintro ⟨_, same⟩
        cases same
        rfl

/-- Answer every call of a program by a program over other calls. -/
def handle {Inner : Type} {Reply : Inner → Type}
    (handler : (request : Call) → Program Inner Reply (Answer request)) :
    Program Call Answer Value → Program Inner Reply Value
  | .done value => .done value
  | .call request next =>
      (handler request).bind fun answer => (next answer).handle handler

/-- Run a program in a world that answers its calls, or some of them. -/
def exec {World : Type}
    (respond : World → (request : Call) → Option (World × Answer request)) :
    Program Call Answer Value → World → Option (World × Value)
  | .done value, world => some (world, value)
  | .call request next, world =>
      (respond world request).bind fun answered => (next answered.2).exec respond answered.1

/-- One part of a program runs after the other one. -/
theorem exec_bind {World : Type}
    {respond : World → (request : Call) → Option (World × Answer request)}
    (program : Program Call Answer Value) (rest : Value → Program Call Answer Final)
    (world : World) :
    (program.bind rest).exec respond world =
      (program.exec respond world).bind fun ran => (rest ran.2).exec respond ran.1 := by
  induction program generalizing world with
  | done value => rfl
  | call request next inductionHypothesis =>
      rw [bind_call, exec, exec]
      cases respond world request with
      | none => rfl
      | some answered => exact inductionHypothesis answered.2 answered.1

end Program

end PeReview.Process
