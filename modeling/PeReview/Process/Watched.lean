import PeReview.Data.Placed
import PeReview.Process.Interference
import PeReview.Process.Protocol

/-!
# Pools whose calls are recorded

`Watched` runs a pool and records what each party has called and been answered since its
program began, and what all of them have, in order.  When every program of a pool keeps to a
protocol, a party is always in the state its calls lead to, and what a protocol spends is never
more than what it earns, over all parties and whatever they are interrupted by.
-/

namespace PeReview.Process

section Pools

variable {Who Call Choice Seed Event Shared State : Type} {Answer : Call → Type}

structure Watched (Who Shared Call : Type) (Answer : Call → Type) where
  pool : Pool Who Shared Call Answer
  /-- The calls of the program each party is running. -/
  passes : Who → List (Exchange Call Answer) := fun _ => []
  /-- All calls, in order. -/
  log : List (Who × Exchange Call Answer) := []

def Pool.exchange (effects : Effects Who Shared Call Answer Choice Seed Event) :
    PoolLabel Who Choice Seed Event → Pool Who Shared Call Answer →
      Option (Who × Exchange Call Answer)
  | .call who choice, pool =>
      match pool.threads who with
      | .done _ => none
      | .call request _ =>
          (effects.perform who request choice pool.shared).map
            fun (_, answer) => (who, ⟨request, answer⟩)
  | _, _ => none

namespace Watched

def watch (pool : Pool Who Shared Call Answer) : Watched Who Shared Call Answer :=
  { pool }

section Steps

variable [DecidableEq Who]

/-- The calls of the running programs after a step. -/
def noted (passes : Who → List (Exchange Call Answer)) :
    PoolLabel Who Choice Seed Event → Option (Who × Exchange Call Answer) →
      Who → List (Exchange Call Answer)
  | .crash who, _ | .spawn who _, _ => Function.update passes who []
  | _, none => passes
  | _, some (who, exchange) => Function.update passes who (passes who ++ [exchange])

def step (effects : Effects Who Shared Call Answer Choice Seed Event)
    (label : PoolLabel Who Choice Seed Event) (watched : Watched Who Shared Call Answer) :
    Option (Watched Who Shared Call Answer) :=
  let exchange := Pool.exchange effects label watched.pool
  (Pool.step effects label watched.pool).map fun pool =>
    { pool
      passes := noted watched.passes label exchange
      log := watched.log ++ exchange.toList }

def answered (watched : Watched Who Shared Call Answer) (who : Who)
    (program : Program Call Answer Unit) (shared : Shared) (exchange : Exchange Call Answer) :
    Watched Who Shared Call Answer :=
  { pool := watched.pool.update who program shared
    passes := Function.update watched.passes who (watched.passes who ++ [exchange])
    log := watched.log ++ [(who, exchange)] }

def begun (watched : Watched Who Shared Call Answer) (who : Who)
    (program : Program Call Answer Unit) (shared : Shared) : Watched Who Shared Call Answer :=
  { watched with
    pool := watched.pool.update who program shared
    passes := Function.update watched.passes who [] }

variable {effects : Effects Who Shared Call Answer Choice Seed Event}
  {label : PoolLabel Who Choice Seed Event} {source target : Watched Who Shared Call Answer}

/-- What one step of a watched pool can do. -/
theorem step_cases (stepped : step effects label source = some target) :
    (∃ who choice request next shared answer,
        label = .call who choice ∧ source.pool.threads who = .call request next ∧
        effects.perform who request choice source.pool.shared = some (shared, answer) ∧
        target = source.answered who (next answer) shared ⟨request, answer⟩) ∨
      (∃ who, label = .crash who ∧
        target = source.begun who (.done ()) source.pool.shared) ∨
      (∃ who seed shared program, label = .spawn who seed ∧
        effects.spawn who seed source.pool.shared = some (shared, program) ∧
        target = source.begun who program shared) ∨
      ∃ event shared, label = .event event ∧
        effects.event event source.pool.shared = some shared ∧
        target = { source with pool := { source.pool with shared } } := by
  obtain ⟨pool, poolStepped, rfl⟩ := Option.map_eq_some_iff.mp stepped
  rcases Pool.step_cases poolStepped with
    ⟨who, choice, request, next, shared, answer, rfl, thread, performed, rfl⟩ |
    ⟨who, rfl, rfl⟩ | ⟨who, seed, shared, program, rfl, spawned, rfl⟩ |
    ⟨event, shared, rfl, happened, rfl⟩
  · left
    refine ⟨who, choice, request, next, shared, answer, rfl, thread, performed, ?_⟩
    simp only [Pool.exchange, thread, performed, Option.map_some, noted, answered,
      Option.toList_some]
  · right; left
    refine ⟨who, rfl, ?_⟩
    simp only [Pool.exchange, noted, begun, Option.toList_none, List.append_nil]
  · right; right; left
    refine ⟨who, seed, shared, program, rfl, spawned, ?_⟩
    simp only [Pool.exchange, noted, begun, Option.toList_none, List.append_nil]
  · right; right; right
    refine ⟨event, shared, rfl, happened, ?_⟩
    simp only [Pool.exchange, noted, Option.toList_none, List.append_nil]

/-- Recording leaves the runs of the pool alone. -/
theorem run_pool {labels : List (PoolLabel Who Choice Seed Event)}
    (ran : run (step effects) labels source = some target) :
    run (Pool.step effects) labels source.pool = some target.pool := by
  induction labels generalizing source with
  | nil =>
      cases ran
      rfl
  | cons label rest inductionHypothesis =>
      obtain ⟨middle, stepped, remaining⟩ := run_cons_eq_some.mp ran
      obtain ⟨pool, poolStepped, rfl⟩ := Option.map_eq_some_iff.mp stepped
      exact run_cons_eq_some.mpr ⟨pool, poolStepped, inductionHypothesis remaining⟩

/-- Every run of the pool can be recorded. -/
theorem exists_run {labels : List (PoolLabel Who Choice Seed Event)}
    {pool : Pool Who Shared Call Answer}
    (ran : run (Pool.step effects) labels source.pool = some pool) :
    ∃ target, run (step effects) labels source = some target ∧ target.pool = pool := by
  induction labels generalizing source with
  | nil =>
      cases ran
      exact ⟨source, rfl, rfl⟩
  | cons label rest inductionHypothesis =>
      obtain ⟨middle, poolStepped, remaining⟩ := run_cons_eq_some.mp ran
      let exchange := Pool.exchange effects label source.pool
      let between : Watched Who Shared Call Answer :=
        { pool := middle
          passes := noted source.passes label exchange
          log := source.log ++ exchange.toList }
      have stepped : step effects label source = some between := by
        unfold step
        rw [poolStepped]
        rfl
      obtain ⟨target, went, reached⟩ := @inductionHypothesis between remaining
      exact ⟨target, run_cons_eq_some.mpr ⟨between, stepped, went⟩, reached⟩

/-- The runs of the pool are those that are recorded. -/
theorem run_iff {labels : List (PoolLabel Who Choice Seed Event)}
    {pool : Pool Who Shared Call Answer} :
    run (Pool.step effects) labels source.pool = some pool ↔
      ∃ target, run (step effects) labels source = some target ∧ target.pool = pool := by
  constructor
  · exact exists_run
  · intro recorded
    obtain ⟨target, ran, same⟩ := recorded
    rw [← same]
    exact run_pool ran

end Steps

/-! ## What the parties know -/

section Knowing

/-- What the state of a protocol says of the shared state is kept by every step of a pool. -/
structure Sound (effects : Effects Who Shared Call Answer Choice Seed Event)
    (protocol : Protocol Call Answer State) (begins : State → Prop) (valid : Shared → Prop)
    (knows : Who → State → Shared → Prop) : Prop where
  performed : ∀ {who request choice state source target answer},
    valid source → knows who state source → protocol.allowed state request →
      effects.perform who request choice source = some (target, answer) →
        valid target ∧ protocol.answers request answer ∧
          knows who (protocol.next state request answer) target ∧
          ∀ other known, who ≠ other → knows other known source → knows other known target
  happened : ∀ {event source target},
    valid source → effects.event event source = some target →
      valid target ∧ ∀ who known, knows who known source → knows who known target
  spawned : ∀ {who seed source target program},
    valid source → effects.spawn who seed source = some (target, program) →
      valid target ∧
        (∃ state, begins state ∧ program.Keeps protocol (fun _ _ => True) state ∧
          knows who state target) ∧
        ∀ other known, who ≠ other → knows other known source → knows other known target
  idle : ∀ who shared, valid shared → ∃ state, begins state ∧ knows who state shared

/-- Every party has kept to the protocol, keeps to it from the state its calls have led to, and
knows what that state says. -/
def Upholds (protocol : Protocol Call Answer State) (begins : State → Prop)
    (valid : Shared → Prop) (knows : Who → State → Shared → Prop)
    (watched : Watched Who Shared Call Answer) : Prop :=
  valid watched.pool.shared ∧
    ∀ who, ∃ state, begins state ∧ protocol.Conforms state (watched.passes who) ∧
      (watched.pool.threads who).Keeps protocol (fun _ _ => True)
        (protocol.after state (watched.passes who)) ∧
      knows who (protocol.after state (watched.passes who)) watched.pool.shared

variable [DecidableEq Who] {effects : Effects Who Shared Call Answer Choice Seed Event}
  {protocol : Protocol Call Answer State} {begins : State → Prop} {valid : Shared → Prop}
  {knows : Who → State → Shared → Prop} {label : PoolLabel Who Choice Seed Event}
  {source target : Watched Who Shared Call Answer}

/-- The party of a step is in a new state, and the others know what they knew. -/
theorem Upholds.replaced {who : Who} {program : Program Call Answer Unit} {shared : Shared}
    {pass : List (Exchange Call Answer)} {log : List (Who × Exchange Call Answer)}
    (before : source.Upholds protocol begins valid knows) (now : valid shared)
    (own : ∃ state, begins state ∧ protocol.Conforms state pass ∧
      program.Keeps protocol (fun _ _ => True) (protocol.after state pass) ∧
      knows who (protocol.after state pass) shared)
    (others : ∀ other known, who ≠ other → knows other known source.pool.shared →
      knows other known shared) :
    Upholds protocol begins valid knows
      { pool := source.pool.update who program shared
        passes := Function.update source.passes who pass
        log } := by
  refine ⟨now, ?_⟩
  intro other
  by_cases same : other = who
  · subst same
    simpa only [Pool.update, Function.update_self] using own
  · obtain ⟨state, begun, conforms, keeps, known⟩ := before.2 other
    refine ⟨state, begun, ?_⟩
    simp only [Pool.update, Function.update_of_ne same]
    exact ⟨conforms, keeps, others other _ (Ne.symm same) known⟩

theorem Upholds.next (sound : Sound effects protocol begins valid knows)
    (before : source.Upholds protocol begins valid knows)
    (stepped : step effects label source = some target) :
    target.Upholds protocol begins valid knows := by
  rcases step_cases stepped with
    ⟨who, choice, request, next, shared, answer, _, thread, performed, rfl⟩ |
    ⟨who, _, rfl⟩ | ⟨who, seed, shared, program, _, spawned, rfl⟩ |
    ⟨event, shared, _, happened, rfl⟩
  · obtain ⟨state, begun, conforms, keeps, known⟩ := before.2 who
    rw [thread] at keeps
    obtain ⟨allowed, continues⟩ := keeps
    obtain ⟨now, kind, learnt, others⟩ := sound.performed before.1 known allowed performed
    refine before.replaced now ⟨state, begun, ?_⟩ others
    rw [Protocol.after_append]
    exact ⟨Protocol.conforms_append.mpr ⟨conforms, allowed⟩, continues answer kind, learnt⟩
  · obtain ⟨state, begun, known⟩ := sound.idle who source.pool.shared before.1
    exact before.replaced before.1 ⟨state, begun, True.intro, True.intro, known⟩
      fun _ _ _ knew => knew
  · obtain ⟨now, ⟨state, begun, keeps, known⟩, others⟩ := sound.spawned before.1 spawned
    exact before.replaced now ⟨state, begun, True.intro, keeps, known⟩ others
  · obtain ⟨now, others⟩ := sound.happened before.1 happened
    refine ⟨now, ?_⟩
    intro who
    obtain ⟨state, begun, conforms, keeps, known⟩ := before.2 who
    exact ⟨state, begun, conforms, keeps, others who _ known⟩

/-- In every reachable pool the parties know what their calls have told them. -/
theorem upholds_reachable {initial : Watched Who Shared Call Answer → Prop}
    (sound : Sound effects protocol begins valid knows)
    (base : ∀ watched, initial watched → watched.Upholds protocol begins valid knows)
    (reached : Reachable (step effects) initial target) :
    target.Upholds protocol begins valid knows :=
  reached.invariant base fun _ _ _ before stepped => before.next sound stepped

end Knowing

/-! ## What the parties spend -/

section Spending

variable [DecidableEq Who]

def total (price : Exchange Call Answer → Nat) (log : List (Who × Exchange Call Answer)) : Nat :=
  Data.total (fun entry => price entry.2) log

def callsOf (who : Who) (log : List (Who × Exchange Call Answer)) :
    List (Who × Exchange Call Answer) :=
  log.filter fun entry => entry.1 = who

/-- What a protocol spends on a call is covered by the credit of its state and by what the call
earns. -/
structure Solvent (protocol : Protocol Call Answer State) (begins : State → Prop)
    (credit : State → Nat) (cost gain : Exchange Call Answer → Nat) : Prop where
  begins : ∀ state, begins state → credit state = 0
  covered : ∀ state request answer, protocol.allowed state request →
    credit (protocol.next state request answer) + cost ⟨request, answer⟩ ≤
      credit state + gain ⟨request, answer⟩

/-- Every party keeps to the protocol, and has earned its credit and what it has spent. -/
def Balanced (protocol : Protocol Call Answer State) (begins : State → Prop)
    (credit : State → Nat) (cost gain : Exchange Call Answer → Nat)
    (watched : Watched Who Shared Call Answer) : Prop :=
  ∀ who, ∃ state, begins state ∧
    (watched.pool.threads who).Keeps protocol (fun _ _ => True)
      (protocol.after state (watched.passes who)) ∧
    total cost (callsOf who watched.log) +
        credit (protocol.after state (watched.passes who)) ≤
      total gain (callsOf who watched.log)

variable {price cost gain : Exchange Call Answer → Nat}
  {log rest : List (Who × Exchange Call Answer)}
  {effects : Effects Who Shared Call Answer Choice Seed Event}
  {protocol : Protocol Call Answer State} {begins : State → Prop} {credit : State → Nat}
  {label : PoolLabel Who Choice Seed Event} {source target : Watched Who Shared Call Answer}

omit [DecidableEq Who] in
theorem total_append : total price (log ++ rest) = total price log + total price rest := by
  unfold total
  exact Data.total_append

/-- A log is the calls of one party and those of the others. -/
theorem total_split (price : Exchange Call Answer → Nat) (who : Who)
    (log : List (Who × Exchange Call Answer)) :
    total price log =
      total price (callsOf who log) +
        total price (log.filter fun entry => !decide (entry.1 = who)) := by
  induction log with
  | nil => rfl
  | cons entry rest inductionHypothesis =>
      unfold total callsOf at *
      by_cases own : entry.1 = who
      · simp only [Data.total_cons, List.filter_cons, own, decide_true,
          Bool.not_true, Bool.false_eq_true, if_true, if_false] at *
        omega
      · simp only [Data.total_cons, List.filter_cons, own, decide_false,
          Bool.not_false, Bool.false_eq_true, if_true, if_false] at *
        omega

theorem callsOf_others {who other : Who} (different : other ≠ who) :
    callsOf other (log.filter fun entry => !decide (entry.1 = who)) = callsOf other log := by
  unfold callsOf
  rw [List.filter_filter]
  apply List.filter_congr
  intro entry _
  by_cases own : entry.1 = other
  · simp [own, different]
  · simp [own]

/-- When no party spends more than it earns, all of them together do not either. -/
theorem total_le (each : ∀ who, total cost (callsOf who log) ≤ total gain (callsOf who log)) :
    total cost log ≤ total gain log := by
  induction size : log.length using Nat.strongRecOn generalizing log with
  | ind bound inductionHypothesis =>
      cases log with
      | nil => exact Nat.le_refl _
      | cons entry rest =>
          let others := (entry :: rest).filter fun other => !decide (other.1 = entry.1)
          have shorter : others.length < bound := by
            rw [← size]
            have tail := List.length_filter_le
              (fun other : Who × Exchange Call Answer => !decide (other.1 = entry.1)) rest
            simp only [others, List.filter_cons, decide_true, Bool.not_true,
              Bool.false_eq_true, if_false, List.length_cons]
            omega
          have remaining : total cost others ≤ total gain others := by
            refine inductionHypothesis others.length shorter ?_ rfl
            intro who
            by_cases same : who = entry.1
            · have empty : callsOf who others = [] := by
                unfold callsOf
                rw [List.filter_eq_nil_iff]
                intro other member
                have foreign := (List.mem_filter.mp member).2
                simpa [same] using foreign
              rw [empty]
              exact Nat.le_refl _
            · rw [callsOf_others same]
              exact each who
          have own := each entry.1
          rw [total_split cost entry.1, total_split gain entry.1]
          exact Nat.add_le_add own remaining

theorem callsOf_append_self (who : Who) (exchange : Exchange Call Answer) :
    callsOf who (log ++ [(who, exchange)]) = callsOf who log ++ [(who, exchange)] := by
  unfold callsOf
  rw [List.filter_append]
  simp

theorem callsOf_append_of_ne {who other : Who} (different : other ≠ who)
    (exchange : Exchange Call Answer) :
    callsOf other (log ++ [(who, exchange)]) = callsOf other log := by
  unfold callsOf
  rw [List.filter_append]
  simp [Ne.symm different]

/-- The party of a step begins another program, which it has no credit for. -/
theorem Balanced.begun {who : Who} {program : Program Call Answer Unit} {shared : Shared}
    (solvent : Solvent protocol begins credit cost gain)
    (before : source.Balanced protocol begins credit cost gain)
    (own : ∃ state, begins state ∧ program.Keeps protocol (fun _ _ => True) state) :
    (source.begun who program shared).Balanced protocol begins credit cost gain := by
  intro other
  by_cases same : other = who
  · subst same
    obtain ⟨state, begun, keeps⟩ := own
    obtain ⟨_, _, _, earned⟩ := before other
    refine ⟨state, begun, ?_⟩
    simp only [Watched.begun, Pool.update, Function.update_self]
    refine ⟨keeps, ?_⟩
    have none : credit (protocol.after state []) = 0 := solvent.begins state begun
    omega
  · obtain ⟨state, begun, keeps, earned⟩ := before other
    refine ⟨state, begun, ?_⟩
    simp only [Watched.begun, Pool.update, Function.update_of_ne same]
    exact ⟨keeps, earned⟩

theorem Balanced.answered {who : Who} {request : Call}
    {next : Answer request → Program Call Answer Unit} {shared : Shared}
    {answer : Answer request} (solvent : Solvent protocol begins credit cost gain)
    (kind : protocol.answers request answer)
    (before : source.Balanced protocol begins credit cost gain)
    (thread : source.pool.threads who = .call request next) :
    (source.answered who (next answer) shared ⟨request, answer⟩).Balanced protocol begins
      credit cost gain := by
  intro other
  by_cases same : other = who
  · subst same
    obtain ⟨state, begun, keeps, earned⟩ := before other
    rw [thread] at keeps
    obtain ⟨allowed, continues⟩ := keeps
    refine ⟨state, begun, ?_⟩
    simp only [Watched.answered, Pool.update, Function.update_self, Protocol.after_append]
    refine ⟨continues answer kind, ?_⟩
    have covered := solvent.covered _ request answer allowed
    rw [callsOf_append_self, total_append, total_append]
    have paid : total cost [(other, ⟨request, answer⟩)] = cost ⟨request, answer⟩ := by
      simp [total]
    have gained : total gain [(other, ⟨request, answer⟩)] = gain ⟨request, answer⟩ := by
      simp [total]
    omega
  · obtain ⟨state, begun, keeps, earned⟩ := before other
    refine ⟨state, begun, ?_⟩
    simp only [Watched.answered, Pool.update, Function.update_of_ne same]
    rw [callsOf_append_of_ne same]
    exact ⟨keeps, earned⟩

theorem Balanced.next (solvent : Solvent protocol begins credit cost gain)
    (inhabited : ∃ state, begins state)
    (performed : ∀ who request choice shared later answer,
      effects.perform who request choice shared = some (later, answer) →
        protocol.answers request answer)
    (spawned : ∀ who seed shared later program,
      effects.spawn who seed shared = some (later, program) →
        ∃ state, begins state ∧ program.Keeps protocol (fun _ _ => True) state)
    (before : source.Balanced protocol begins credit cost gain)
    (stepped : step effects label source = some target) :
    target.Balanced protocol begins credit cost gain := by
  rcases step_cases stepped with
    ⟨who, choice, request, next, shared, answer, _, thread, answered, rfl⟩ |
    ⟨who, _, rfl⟩ | ⟨who, seed, shared, program, _, born, rfl⟩ |
    ⟨event, shared, _, happened, rfl⟩
  · exact before.answered solvent (performed who request choice _ shared answer answered) thread
  · obtain ⟨state, begun⟩ := inhabited
    exact before.begun solvent ⟨state, begun, True.intro⟩
  · exact before.begun solvent (spawned who seed _ shared program born)
  · exact before

/-- In every reachable pool no more has been spent than has been earned. -/
theorem spent_le_earned {initial : Watched Who Shared Call Answer → Prop}
    (solvent : Solvent protocol begins credit cost gain)
    (inhabited : ∃ state, begins state)
    (performed : ∀ who request choice shared later answer,
      effects.perform who request choice shared = some (later, answer) →
        protocol.answers request answer)
    (spawned : ∀ who seed shared later program,
      effects.spawn who seed shared = some (later, program) →
        ∃ state, begins state ∧ program.Keeps protocol (fun _ _ => True) state)
    (base : ∀ watched, initial watched → watched.Balanced protocol begins credit cost gain)
    (reached : Reachable (step effects) initial target) :
    total cost target.log ≤ total gain target.log := by
  have balanced : target.Balanced protocol begins credit cost gain :=
    reached.invariant base fun _ _ _ before stepped =>
      before.next solvent inhabited performed spawned stepped
  apply total_le
  intro who
  obtain ⟨_, _, _, earned⟩ := balanced who
  omega

/-- What the calls earn is on record in the shared state. -/
structure OnRecord (effects : Effects Who Shared Call Answer Choice Seed Event)
    (gain : Exchange Call Answer → Nat) (measure : Shared → Nat) : Prop where
  performed : ∀ {who request choice source target answer},
    effects.perform who request choice source = some (target, answer) →
      measure source + gain ⟨request, answer⟩ ≤ measure target
  happened : ∀ {event source target},
    effects.event event source = some target → measure source ≤ measure target
  spawned : ∀ {who seed source target program},
    effects.spawn who seed source = some (target, program) → measure source ≤ measure target

/-- In every reachable pool no more has been earned than is on record. -/
theorem earned_le {measure : Shared → Nat} {initial : Watched Who Shared Call Answer → Prop}
    (onRecord : OnRecord effects gain measure)
    (base : ∀ watched, initial watched → watched.log = [])
    (reached : Reachable (step effects) initial target) :
    total gain target.log ≤ measure target.pool.shared := by
  let covered : Watched Who Shared Call Answer → Prop := fun watched =>
    total gain watched.log ≤ measure watched.pool.shared
  suffices holds : covered target from holds
  refine reached.invariant ?_ ?_
  · intro watched start
    simp only [covered]
    rw [base watched start]
    exact Nat.zero_le _
  · intro label source target before stepped
    rcases step_cases stepped with
      ⟨who, choice, request, next, shared, answer, _, _, performed, rfl⟩ |
      ⟨who, _, rfl⟩ | ⟨who, seed, shared, program, _, spawned, rfl⟩ |
      ⟨event, shared, _, happened, rfl⟩
    · have grown := onRecord.performed performed
      have earned : total gain [(who, ⟨request, answer⟩)] = gain ⟨request, answer⟩ := by
        simp [total]
      simp only [covered, answered, Pool.update, total_append] at before ⊢
      omega
    · exact before
    · exact before.trans (onRecord.spawned spawned)
    · exact before.trans (onRecord.happened happened)

end Spending

end Watched

end Pools

end PeReview.Process
