import Mathlib.Logic.Function.Basic
import PeReview.Process.Program
import PeReview.Process.Transition

/-!
# Programs under interference

A pool runs one program for each party over a shared state.  Between two calls
of a program the other parties and the environment may act.  A `Discipline`
says which calls are allowed in which shared state, and what every party may
rely on while others act.  `Safe` is the weakest precondition of a program under
that interference, and `Pool.safe_reachable` carries it to every run of a pool.
-/

namespace PeReview.Process

section Pool

variable {Who Call Choice Seed Event Shared : Type} {Answer : Call → Type}

/-- One program for each party over one shared state.  A party whose program is
done is idle. -/
structure Pool (Who Shared Call : Type) (Answer : Call → Type) where
  threads : Who → Program Call Answer Unit
  shared : Shared

/-- What can happen next in a pool. -/
inductive PoolLabel (Who Choice Seed Event : Type)
  | call (who : Who) (choice : Choice)
  | crash (who : Who)
  | spawn (who : Who) (seed : Seed)
  | event (event : Event)
  deriving DecidableEq

/-- The atomic effects a pool is built from.  A `Choice` resolves what a call
leaves open: the answer of an external service, or a lost acknowledgement. -/
structure Effects (Who Shared Call : Type) (Answer : Call → Type)
    (Choice Seed Event : Type) where
  perform : Who → (request : Call) → Choice → Shared →
    Option (Shared × Answer request)
  spawn : Who → Seed → Shared → Option (Shared × Program Call Answer Unit)
  event : Event → Shared → Option Shared

namespace Pool

variable [DecidableEq Who]

def update (pool : Pool Who Shared Call Answer) (who : Who)
    (program : Program Call Answer Unit) (shared : Shared) :
    Pool Who Shared Call Answer :=
  { threads := Function.update pool.threads who program, shared }

def step (effects : Effects Who Shared Call Answer Choice Seed Event) :
    PoolLabel Who Choice Seed Event → Pool Who Shared Call Answer →
      Option (Pool Who Shared Call Answer)
  | .call who choice, pool =>
      match pool.threads who with
      | .done _ => none
      | .call request next =>
          (effects.perform who request choice pool.shared).map
            fun (shared, answer) => pool.update who (next answer) shared
  | .crash who, pool => some (pool.update who (.done ()) pool.shared)
  | .spawn who seed, pool =>
      if (pool.threads who).isDone then
        (effects.spawn who seed pool.shared).map
          fun (shared, program) => pool.update who program shared
      else none
  | .event event, pool =>
      (effects.event event pool.shared).map fun shared => { pool with shared }

/-- What one step of a pool can do. -/
theorem step_cases {effects : Effects Who Shared Call Answer Choice Seed Event}
    {label : PoolLabel Who Choice Seed Event}
    {source target : Pool Who Shared Call Answer}
    (stepped : step effects label source = some target) :
    (∃ who choice request next shared answer,
        label = .call who choice ∧
        source.threads who = .call request next ∧
        effects.perform who request choice source.shared = some (shared, answer) ∧
        target = source.update who (next answer) shared) ∨
      (∃ who, label = .crash who ∧
        target = source.update who (.done ()) source.shared) ∨
      (∃ who seed shared program, label = .spawn who seed ∧
        effects.spawn who seed source.shared = some (shared, program) ∧
        target = source.update who program shared) ∨
      ∃ event shared, label = .event event ∧
        effects.event event source.shared = some shared ∧
        target = { source with shared } := by
  cases label with
  | call who choice =>
      left
      simp only [step] at stepped
      split at stepped
      · cases stepped
      · rename_i request next thread
        obtain ⟨⟨shared, answer⟩, performed, rfl⟩ :=
          Option.map_eq_some_iff.mp stepped
        exact ⟨who, choice, request, next, shared, answer, rfl, thread,
          performed, rfl⟩
  | crash who =>
      right; left
      simp only [step, Option.some.injEq] at stepped
      exact ⟨who, rfl, stepped.symm⟩
  | spawn who seed =>
      right; right; left
      simp only [step] at stepped
      split at stepped
      · obtain ⟨⟨shared, program⟩, spawned, rfl⟩ :=
          Option.map_eq_some_iff.mp stepped
        exact ⟨who, seed, shared, program, rfl, spawned, rfl⟩
      · cases stepped
  | event event =>
      right; right; right
      obtain ⟨shared, happened, rfl⟩ := Option.map_eq_some_iff.mp stepped
      exact ⟨event, shared, rfl, happened, rfl⟩

end Pool

/-- A discipline for the parties of a pool.  `allowed` is what a party owes the
others before it issues a call; `rely` is what a party working in a context may
assume about the steps of the others. -/
structure Discipline (effects : Effects Who Shared Call Answer Choice Seed Event)
    (Context : Type) where
  valid : Shared → Prop
  allowed : Who → Call → Shared → Prop
  rely : Who → Context → Shared → Shared → Prop
  rely_refl : ∀ who context shared, rely who context shared shared
  rely_trans : ∀ {who context first second third},
    rely who context first second → rely who context second third →
      rely who context first third
  perform_valid : ∀ {who request choice source target answer},
    valid source → allowed who request source →
      effects.perform who request choice source = some (target, answer) →
        valid target
  perform_rely : ∀ {who other context request choice source target answer},
    who ≠ other → valid source → allowed who request source →
      effects.perform who request choice source = some (target, answer) →
        rely other context source target
  event_valid : ∀ {event source target},
    valid source → effects.event event source = some target → valid target
  event_rely : ∀ {who context event source target},
    valid source → effects.event event source = some target →
      rely who context source target
  spawn_valid : ∀ {who seed source target program},
    valid source → effects.spawn who seed source = some (target, program) →
      valid target
  spawn_rely : ∀ {who other context seed source target program},
    who ≠ other → valid source →
      effects.spawn who seed source = some (target, program) →
        rely other context source target

end Pool

section Safety

variable {Who Call Choice Seed Event Shared Context : Type}
  {Answer : Call → Type}
  {effects : Effects Who Shared Call Answer Choice Seed Event}

/-- The weakest precondition of a program under interference: every call is
allowed whenever it is issued, and the returned value satisfies the
postcondition in every state the others may have reached by then. -/
def Safe {Value : Type} (discipline : Discipline effects Context)
    (who : Who) (context : Context) :
    Program Call Answer Value → (Value → Shared → Prop) → Shared → Prop
  | .done value, post, shared =>
      ∀ later, discipline.rely who context shared later →
        discipline.valid later → post value later
  | .call request next, post, shared =>
      ∀ later, discipline.rely who context shared later →
        discipline.valid later →
          discipline.allowed who request later ∧
            ∀ choice target answer,
              effects.perform who request choice later = some (target, answer) →
                Safe discipline who context (next answer) post target

namespace Safe

variable {Value Final : Type} {discipline : Discipline effects Context}
  {who : Who} {context : Context}

theorem mono {program : Program Call Answer Value}
    {post : Value → Shared → Prop} {source target : Shared}
    (safe : Safe discipline who context program post source)
    (interfered : discipline.rely who context source target) :
    Safe discipline who context program post target := by
  cases program with
  | done value =>
      intro later further
      exact safe later (discipline.rely_trans interfered further)
  | call request next =>
      intro later further
      exact safe later (discipline.rely_trans interfered further)

theorem weaken {program : Program Call Answer Value}
    {post weaker : Value → Shared → Prop} {source : Shared}
    (safe : Safe discipline who context program post source)
    (implies : ∀ value shared, discipline.valid shared →
      post value shared → weaker value shared) :
    Safe discipline who context program weaker source := by
  induction program generalizing source with
  | done value =>
      intro later interfered kept
      exact implies value later kept (safe later interfered kept)
  | call request next inductionHypothesis =>
      intro later interfered kept
      obtain ⟨allowed, resume⟩ := safe later interfered kept
      refine ⟨allowed, ?_⟩
      intro choice target answer performed
      exact
        inductionHypothesis answer (resume choice target answer performed)

theorem bind {program : Program Call Answer Value}
    {rest : Value → Program Call Answer Final}
    {middle : Value → Shared → Prop} {post : Final → Shared → Prop}
    {source : Shared} (kept : discipline.valid source)
    (first : Safe discipline who context program middle source)
    (second : ∀ value shared, discipline.valid shared →
      middle value shared →
        Safe discipline who context (rest value) post shared) :
    Safe discipline who context (program.bind rest) post source := by
  induction program generalizing source with
  | done value =>
      exact
        second value source kept
          (first source (discipline.rely_refl who context source) kept)
  | call request next inductionHypothesis =>
      intro later interfered laterKept
      obtain ⟨allowed, resume⟩ := first later interfered laterKept
      refine ⟨allowed, ?_⟩
      intro choice target answer performed
      exact
        inductionHypothesis answer
          (discipline.perform_valid laterKept allowed performed)
          (resume choice target answer performed)

end Safe

/-- A specification of a program: from every valid state that satisfies the
precondition the program is safe for the postcondition. -/
def Spec {Value : Type} (discipline : Discipline effects Context)
    (who : Who) (context : Context) (pre : Shared → Prop)
    (program : Program Call Answer Value) (post : Value → Shared → Prop) :
    Prop :=
  ∀ shared, discipline.valid shared → pre shared →
    Safe discipline who context program post shared

/-- An assertion that the steps of others cannot invalidate. -/
def Stable (discipline : Discipline effects Context) (who : Who)
    (context : Context) (assertion : Shared → Prop) : Prop :=
  ∀ source target, discipline.rely who context source target →
    discipline.valid target → assertion source → assertion target

namespace Spec

variable {Value Final : Type} {discipline : Discipline effects Context}
  {who : Who} {context : Context}

theorem done {pre : Shared → Prop} {value : Value}
    {post : Value → Shared → Prop}
    (stable : Stable discipline who context pre)
    (implies : ∀ shared, discipline.valid shared → pre shared →
      post value shared) :
    Spec discipline who context pre (.done value) post := by
  intro shared _ holds later interfered kept
  exact implies later kept (stable shared later interfered kept holds)

theorem consequence {pre stronger : Shared → Prop}
    {program : Program Call Answer Value}
    {post weaker : Value → Shared → Prop}
    (spec : Spec discipline who context pre program post)
    (before : ∀ shared, discipline.valid shared → stronger shared → pre shared)
    (after : ∀ value shared, discipline.valid shared →
      post value shared → weaker value shared) :
    Spec discipline who context stronger program weaker := by
  intro shared kept holds
  exact (spec shared kept (before shared kept holds)).weaken after

theorem bind {pre : Shared → Prop} {program : Program Call Answer Value}
    {rest : Value → Program Call Answer Final}
    {middle : Value → Shared → Prop} {post : Final → Shared → Prop}
    (first : Spec discipline who context pre program middle)
    (second : ∀ value,
      Spec discipline who context (middle value) (rest value) post) :
    Spec discipline who context pre (program.bind rest) post := by
  intro shared kept holds
  exact Safe.bind kept (first shared kept holds) second

/-- The rule of a single call: its precondition is stable and pays for the call,
and every answer establishes a stable postcondition. -/
theorem perform {pre : Shared → Prop} {request : Call}
    {post : Answer request → Shared → Prop}
    (stable : Stable discipline who context pre)
    (allowed : ∀ shared, discipline.valid shared → pre shared →
      discipline.allowed who request shared)
    (performed : ∀ source choice target answer,
      discipline.valid source → discipline.valid target → pre source →
        effects.perform who request choice source = some (target, answer) →
          post answer target)
    (postStable : ∀ answer, Stable discipline who context (post answer)) :
    Spec discipline who context pre (Program.perform request) post := by
  intro shared _ holds later interfered kept
  have holdsLater : pre later := stable shared later interfered kept holds
  have allowedLater := allowed later kept holdsLater
  refine ⟨allowedLater, ?_⟩
  intro choice target answer ran final further finalKept
  have targetKept := discipline.perform_valid kept allowedLater ran
  exact
    postStable answer target final further finalKept
      (performed later choice target answer kept targetKept holdsLater ran)

/-- A program whose calls are answered by programs that keep a stable assertion
keeps it as well. -/
theorem handle {Outer : Type} {Reply : Outer → Type}
    {assertion : Shared → Prop}
    {handler : (request : Outer) → Program Call Answer (Reply request)}
    (stable : Stable discipline who context assertion)
    (handled : ∀ request,
      Spec discipline who context assertion (handler request)
        fun _ shared => assertion shared)
    (program : Program Outer Reply Value) :
    Spec discipline who context assertion (program.handle handler)
      fun _ shared => assertion shared := by
  induction program with
  | done value =>
      exact done stable fun _ _ holds => holds
  | call request next inductionHypothesis =>
      exact (handled request).bind inductionHypothesis

end Spec

section Exceptions

variable {Error Value Final : Type} {discipline : Discipline effects Context}
  {who : Who} {context : Context}

/-- Sequencing of programs that may raise: an exception skips the rest. -/
theorem Spec.bindExcept {pre : Shared → Prop}
    {action : ExceptT Error (Program Call Answer) Value}
    {rest : Value → ExceptT Error (Program Call Answer) Final}
    {middle : Except Error Value → Shared → Prop}
    {post : Except Error Final → Shared → Prop}
    (first : Spec discipline who context pre action.run middle)
    (raised : ∀ error, Spec discipline who context (middle (.error error))
      (.done (.error error)) post)
    (second : ∀ value,
      Spec discipline who context (middle (.ok value)) (rest value).run post) :
    Spec discipline who context pre (action >>= rest).run post := by
  refine Spec.bind first ?_
  intro result
  cases result with
  | error error => exact raised error
  | ok value => exact second value

/-- A handler runs after an exception, in the state the exception left. -/
theorem Spec.tryCatch {pre : Shared → Prop}
    {action : ExceptT Error (Program Call Answer) Value}
    {handler : Error → ExceptT Error (Program Call Answer) Value}
    {middle post : Except Error Value → Shared → Prop}
    (first : Spec discipline who context pre action.run middle)
    (returned : ∀ value, Spec discipline who context (middle (.ok value))
      (.done (.ok value)) post)
    (handled : ∀ error,
      Spec discipline who context (middle (.error error))
        (handler error).run post) :
    Spec discipline who context pre
      (MonadExcept.tryCatch action handler).run post := by
  refine Spec.bind first ?_
  intro result
  cases result with
  | error error => exact handled error
  | ok value => exact returned value

end Exceptions

/-- Every party runs a safe program, in some context, over a valid state. -/
def Pool.Disciplined (discipline : Discipline effects Context)
    (pool : Pool Who Shared Call Answer) : Prop :=
  discipline.valid pool.shared ∧
    ∀ who, ∃ context,
      Safe discipline who context (pool.threads who) (fun _ _ => True)
        pool.shared

namespace Pool

variable {discipline : Discipline effects Context}

/-- In a disciplined pool the next call of every party is allowed. -/
theorem Disciplined.allowed {pool : Pool Who Shared Call Answer} {who : Who}
    {request : Call} {next : Answer request → Program Call Answer Unit}
    (disciplined : pool.Disciplined discipline)
    (thread : pool.threads who = .call request next) :
    discipline.allowed who request pool.shared := by
  obtain ⟨context, safe⟩ := disciplined.2 who
  rw [thread] at safe
  exact
    (safe pool.shared (discipline.rely_refl who context _) disciplined.1).1

variable [DecidableEq Who]

/-- A step of a disciplined pool is the doing of at most one party, and all the
others tolerate it. -/
theorem Disciplined.tolerated {source target : Pool Who Shared Call Answer}
    {label : PoolLabel Who Choice Seed Event}
    (before : source.Disciplined discipline)
    (stepped : Pool.step effects label source = some target) :
    (∀ other context,
        discipline.rely other context source.shared target.shared) ∨
      ∃ who, ∀ other context, who ≠ other →
        discipline.rely other context source.shared target.shared := by
  rcases Pool.step_cases stepped with
    ⟨who, choice, request, next, shared, answer, _, thread, performed, rfl⟩ |
    ⟨who, _, rfl⟩ | ⟨who, seed, shared, program, _, begun, rfl⟩ |
    ⟨event, shared, _, happened, rfl⟩
  · right
    exact
      ⟨who, fun _ _ different =>
        discipline.perform_rely different before.1 (before.allowed thread)
          performed⟩
  · left
    exact fun other context => discipline.rely_refl other context _
  · right
    exact
      ⟨who, fun _ _ different =>
        discipline.spawn_rely different before.1 begun⟩
  · left
    exact fun _ _ => discipline.event_rely before.1 happened

/-- Changing one party's program and the shared state keeps the pool
disciplined when the others tolerate the change. -/
theorem Disciplined.update {pool : Pool Who Shared Call Answer} {who : Who}
    {program : Program Call Answer Unit} {shared : Shared} {context : Context}
    (before : pool.Disciplined discipline)
    (kept : discipline.valid shared)
    (safe : Safe discipline who context program (fun _ _ => True) shared)
    (tolerated : ∀ other otherContext, who ≠ other →
      discipline.rely other otherContext pool.shared shared) :
    (pool.update who program shared).Disciplined discipline := by
  refine ⟨kept, ?_⟩
  intro other
  by_cases same : other = who
  · subst same
    exact ⟨context, by simpa [Pool.update] using safe⟩
  · obtain ⟨otherContext, otherSafe⟩ := before.2 other
    have stillSafe :=
      otherSafe.mono (tolerated other otherContext (Ne.symm same))
    exact ⟨otherContext, by simpa [Pool.update, same] using stillSafe⟩

/-- One step keeps a pool disciplined, when every spawned program is safe. -/
theorem Disciplined.step {source target : Pool Who Shared Call Answer}
    {label : PoolLabel Who Choice Seed Event} [Nonempty Context]
    (spawned : ∀ who seed shared later program,
      discipline.valid shared →
        effects.spawn who seed shared = some (later, program) →
          ∃ context, Safe discipline who context program (fun _ _ => True) later)
    (before : source.Disciplined discipline)
    (stepped : Pool.step effects label source = some target) :
    target.Disciplined discipline := by
  rcases Pool.step_cases stepped with
    ⟨who, choice, request, next, shared, answer, _, thread, performed, rfl⟩ |
    ⟨who, _, rfl⟩ | ⟨who, seed, shared, program, _, begun, rfl⟩ |
    ⟨event, shared, _, happened, rfl⟩
  · obtain ⟨context, safe⟩ := before.2 who
    rw [thread] at safe
    obtain ⟨allowed, resume⟩ :=
      safe source.shared (discipline.rely_refl who context _) before.1
    exact
      before.update (discipline.perform_valid before.1 allowed performed)
        (resume choice shared answer performed)
        fun _ _ different =>
          discipline.perform_rely different before.1 allowed performed
  · obtain ⟨context⟩ := ‹Nonempty Context›
    have idle : Safe discipline who context
        (.done () : Program Call Answer Unit) (fun _ _ => True)
        source.shared :=
      fun _ _ _ => True.intro
    exact
      before.update before.1 idle
        fun other otherContext _ => discipline.rely_refl other otherContext _
  · obtain ⟨context, safe⟩ :=
      spawned who seed source.shared shared program before.1 begun
    exact
      before.update (discipline.spawn_valid before.1 begun) safe
        fun _ _ different => discipline.spawn_rely different before.1 begun
  · refine ⟨discipline.event_valid before.1 happened, ?_⟩
    intro who
    obtain ⟨context, safe⟩ := before.2 who
    exact ⟨context, safe.mono (discipline.event_rely before.1 happened)⟩

/-- Every reachable pool is disciplined. -/
theorem disciplined_reachable [Nonempty Context]
    {initial : Pool Who Shared Call Answer → Prop}
    (base : ∀ pool, initial pool → pool.Disciplined discipline)
    (spawned : ∀ who seed shared later program,
      discipline.valid shared →
        effects.spawn who seed shared = some (later, program) →
          ∃ context, Safe discipline who context program (fun _ _ => True) later)
    {pool : Pool Who Shared Call Answer}
    (reached : Reachable (Pool.step effects) initial pool) :
    pool.Disciplined discipline :=
  reached.invariant base fun _ _ _ before stepped =>
    before.step spawned stepped

end Pool

end Safety

end PeReview.Process
