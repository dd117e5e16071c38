import Mathlib.Data.List.Induction
import PeReview.Process.Program

/-!
# Protocols of programs

A protocol says which calls a program may make next, given what its earlier calls have been
answered.  `Program.Keeps` is the weakest precondition of a program that keeps to a protocol
whatever it is answered, and a `Protocol.Triple` states it of every state a precondition allows.
-/

namespace PeReview.Process

/-- The calls a program may make in a state, the answers it may count on, and the state an
answer leads to. -/
structure Protocol (Call : Type) (Answer : Call → Type) (State : Type) where
  allowed : State → Call → Prop
  answers : (request : Call) → Answer request → Prop
  next : State → (request : Call) → Answer request → State

structure Exchange (Call : Type) (Answer : Call → Type) where
  request : Call
  answer : Answer request

section Programs

variable {Call State Value Final : Type} {Answer : Call → Type}

namespace Protocol

def after (protocol : Protocol Call Answer State) (state : State)
    (exchanges : List (Exchange Call Answer)) : State :=
  exchanges.foldl
    (fun state exchange => protocol.next state exchange.request exchange.answer) state

theorem after_append (protocol : Protocol Call Answer State) (state : State)
    (exchanges : List (Exchange Call Answer)) (request : Call) (answer : Answer request) :
    protocol.after state (exchanges ++ [⟨request, answer⟩]) =
      protocol.next (protocol.after state exchanges) request answer := by
  unfold after
  rw [List.foldl_append]
  rfl

def Conforms (protocol : Protocol Call Answer State) :
    State → List (Exchange Call Answer) → Prop
  | _, [] => True
  | state, exchange :: rest =>
      protocol.allowed state exchange.request ∧
        protocol.Conforms (protocol.next state exchange.request exchange.answer) rest

theorem conforms_append {protocol : Protocol Call Answer State} {state : State}
    {exchanges : List (Exchange Call Answer)} {request : Call} {answer : Answer request} :
    protocol.Conforms state (exchanges ++ [⟨request, answer⟩]) ↔
      protocol.Conforms state exchanges ∧
        protocol.allowed (protocol.after state exchanges) request := by
  induction exchanges generalizing state with
  | nil =>
      constructor
      · exact fun conforms => ⟨True.intro, conforms.1⟩
      · exact fun conforms => ⟨conforms.2, True.intro⟩
  | cons exchange rest inductionHypothesis =>
      constructor
      · rintro ⟨allowed, later⟩
        obtain ⟨before, last⟩ := inductionHypothesis.mp later
        exact ⟨⟨allowed, before⟩, last⟩
      · rintro ⟨⟨allowed, before⟩, last⟩
        exact ⟨allowed, inductionHypothesis.mpr ⟨before, last⟩⟩

/-- What every allowed exchange keeps of the calls so far and the state they lead to. -/
theorem Conforms.account {protocol : Protocol Call Answer State}
    {kept : List (Exchange Call Answer) → State → Prop} {state : State}
    {exchanges : List (Exchange Call Answer)} (conforms : protocol.Conforms state exchanges)
    (start : kept [] state)
    (grows : ∀ before state request answer, kept before state →
      protocol.allowed state request →
        kept (before ++ [⟨request, answer⟩]) (protocol.next state request answer)) :
    kept exchanges (protocol.after state exchanges) := by
  induction exchanges using List.reverseRecOn with
  | nil => exact start
  | append_singleton before exchange inductionHypothesis =>
      obtain ⟨request, answer⟩ := exchange
      obtain ⟨earlier, allowed⟩ := conforms_append.mp conforms
      rw [after_append]
      exact grows before _ request answer (inductionHypothesis earlier) allowed

end Protocol

namespace Program

/-- Whatever its calls are answered, as far as the protocol lets them, the program makes allowed
calls only, and ends with a value and in a state that satisfy the postcondition. -/
def Keeps (protocol : Protocol Call Answer State) (post : Value → State → Prop) :
    Program Call Answer Value → State → Prop
  | .done value, state => post value state
  | .call request next, state =>
      protocol.allowed state request ∧
        ∀ answer, protocol.answers request answer →
          (next answer).Keeps protocol post (protocol.next state request answer)

/-- Whatever its calls are answered, the program makes calls of one kind only. -/
def Only (harmless : Call → Prop) : Program Call Answer Value → Prop
  | .done _ => True
  | .call request next => harmless request ∧ ∀ answer, (next answer).Only harmless

theorem Keeps.weaken {protocol : Protocol Call Answer State} {post weaker : Value → State → Prop}
    {program : Program Call Answer Value} {state : State}
    (keeps : program.Keeps protocol post state)
    (implies : ∀ value state, post value state → weaker value state) :
    program.Keeps protocol weaker state := by
  induction program generalizing state with
  | done value => exact implies value state keeps
  | call request next inductionHypothesis =>
      obtain ⟨allowed, continues⟩ := keeps
      refine ⟨allowed, ?_⟩
      intro answer answered
      exact inductionHypothesis answer (continues answer answered)

theorem Keeps.bind {protocol : Protocol Call Answer State} {middle : Value → State → Prop}
    {post : Final → State → Prop} {program : Program Call Answer Value}
    {rest : Value → Program Call Answer Final} {state : State}
    (first : program.Keeps protocol middle state)
    (second : ∀ value state, middle value state → (rest value).Keeps protocol post state) :
    (program.bind rest).Keeps protocol post state := by
  induction program generalizing state with
  | done value => exact second value state first
  | call request next inductionHypothesis =>
      obtain ⟨allowed, continues⟩ := first
      refine ⟨allowed, ?_⟩
      intro answer answered
      exact inductionHypothesis answer (continues answer answered)

namespace Only

variable {harmless : Call → Prop}

theorem done {value : Value} :
    (Program.done value : Program Call Answer Value).Only harmless :=
  True.intro

theorem perform {request : Call} (kind : harmless request) :
    (Program.perform request : Program Call Answer (Answer request)).Only harmless :=
  ⟨kind, fun _ => True.intro⟩

theorem bind {program : Program Call Answer Value} {rest : Value → Program Call Answer Final}
    (first : program.Only harmless) (second : ∀ value, (rest value).Only harmless) :
    (program.bind rest).Only harmless := by
  induction program with
  | done value => exact second value
  | call request next inductionHypothesis =>
      obtain ⟨kind, continues⟩ := first
      exact ⟨kind, fun answer => inductionHypothesis answer (continues answer)⟩

/-- A program whose calls are answered by programs of one kind is of that kind. -/
theorem handle {Outer : Type} {Reply : Outer → Type}
    {handler : (request : Outer) → Program Call Answer (Reply request)}
    (handled : ∀ request, (handler request).Only harmless)
    (program : Program Outer Reply Value) : (program.handle handler).Only harmless := by
  induction program with
  | done value => exact done
  | call request next inductionHypothesis => exact bind (handled request) inductionHypothesis

section Exceptions

variable {Error : Type}

theorem bindExcept {action : ExceptT Error (Program Call Answer) Value}
    {rest : Value → ExceptT Error (Program Call Answer) Final}
    (first : action.run.Only harmless) (second : ∀ value, (rest value).run.Only harmless) :
    (action >>= rest).run.Only harmless := by
  refine bind first ?_
  intro result
  cases result with
  | error error => exact done
  | ok value => exact second value

theorem tryCatch {action : ExceptT Error (Program Call Answer) Value}
    {handler : Error → ExceptT Error (Program Call Answer) Value}
    (first : action.run.Only harmless) (handled : ∀ error, (handler error).run.Only harmless) :
    (MonadExcept.tryCatch action handler).run.Only harmless := by
  refine bind first ?_
  intro result
  cases result with
  | error error => exact handled error
  | ok value => exact done

end Exceptions

end Only

end Program

/-- The program keeps to the protocol from every state the precondition allows. -/
def Protocol.Triple (protocol : Protocol Call Answer State) (pre : State → Prop)
    (program : Program Call Answer Value) (post : Value → State → Prop) : Prop :=
  ∀ state, pre state → program.Keeps protocol post state

namespace Protocol.Triple

variable {protocol : Protocol Call Answer State} {pre : State → Prop}

theorem done {value : Value} {post : Value → State → Prop}
    (implies : ∀ state, pre state → post value state) :
    protocol.Triple pre (.done value) post :=
  implies

theorem bind {program : Program Call Answer Value} {rest : Value → Program Call Answer Final}
    {middle : Value → State → Prop} {post : Final → State → Prop}
    (first : protocol.Triple pre program middle)
    (second : ∀ value, protocol.Triple (middle value) (rest value) post) :
    protocol.Triple pre (program.bind rest) post := by
  intro state holds
  exact (first state holds).bind second

theorem strengthen {stronger : State → Prop} {program : Program Call Answer Value}
    {post : Value → State → Prop} (triple : protocol.Triple pre program post)
    (implies : ∀ state, stronger state → pre state) :
    protocol.Triple stronger program post := by
  intro state holds
  exact triple state (implies state holds)

theorem weaken {program : Program Call Answer Value} {post weaker : Value → State → Prop}
    (triple : protocol.Triple pre program post)
    (implies : ∀ value state, post value state → weaker value state) :
    protocol.Triple pre program weaker := by
  intro state holds
  exact (triple state holds).weaken implies

/-- A fact that holds of the state whenever the precondition does. -/
theorem assuming {fact : Prop} {program : Program Call Answer Value}
    {post : Value → State → Prop} (known : ∀ state, pre state → fact)
    (triple : fact → protocol.Triple pre program post) :
    protocol.Triple pre program post := by
  intro state holds
  exact triple (known state holds) state holds

theorem perform {request : Call} {post : Answer request → State → Prop}
    (allowed : ∀ state, pre state → protocol.allowed state request)
    (answered : ∀ state answer, protocol.answers request answer → pre state →
      post answer (protocol.next state request answer)) :
    protocol.Triple pre (Program.perform request) post := by
  intro state holds
  refine ⟨allowed state holds, ?_⟩
  intro answer kind
  exact answered state answer kind holds

/-- A program that only makes calls the protocol ignores leaves every precondition alone. -/
theorem only {harmless : Call → Prop} {program : Program Call Answer Value}
    (ignored : ∀ state request, harmless request → protocol.allowed state request ∧
      ∀ answer, protocol.next state request answer = state)
    (quiet : program.Only harmless) : protocol.Triple pre program fun _ => pre := by
  intro state holds
  induction program with
  | done value => exact holds
  | call request next inductionHypothesis =>
      obtain ⟨kind, continues⟩ := quiet
      obtain ⟨allowed, same⟩ := ignored state request kind
      refine ⟨allowed, ?_⟩
      intro answer _
      rw [same answer]
      exact inductionHypothesis answer (continues answer)

section Exceptions

variable {Error : Type}

theorem bindExcept {action : ExceptT Error (Program Call Answer) Value}
    {rest : Value → ExceptT Error (Program Call Answer) Final}
    {middle : Except Error Value → State → Prop} {post : Except Error Final → State → Prop}
    (first : protocol.Triple pre action.run middle)
    (raised : ∀ error state, middle (.error error) state → post (.error error) state)
    (second : ∀ value, protocol.Triple (middle (.ok value)) (rest value).run post) :
    protocol.Triple pre (action >>= rest).run post := by
  refine bind first ?_
  intro result
  cases result with
  | error error => exact done (raised error)
  | ok value => exact second value

end Exceptions

end Protocol.Triple

end Programs

end PeReview.Process
