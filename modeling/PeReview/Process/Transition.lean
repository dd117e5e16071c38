import Mathlib.Data.List.Basic
import Mathlib.Data.Option.Basic
import Mathlib.Order.WellFounded

/-!
# Labelled transition functions and their runs

A system is given by a partial function `step : Label → State → Option State`.
A label carries everything the step does not read from the state, so that a run
is a list of labels and can be evaluated.
-/

namespace PeReview.Process

variable {State Label : Type}

def run (step : Label → State → Option State) :
    List Label → State → Option State
  | [], state => some state
  | label :: rest, state => (step label state).bind (run step rest)

section Runs

variable {step : Label → State → Option State}

@[simp]
theorem run_nil (state : State) : run step [] state = some state :=
  rfl

theorem run_cons_eq_some
    {label : Label} {rest : List Label} {source target : State} :
    run step (label :: rest) source = some target ↔
      ∃ middle, step label source = some middle ∧
        run step rest middle = some target := by
  simp only [run, Option.bind_eq_some_iff]

theorem run_append_eq_some
    {first second : List Label} {source target : State} :
    run step (first ++ second) source = some target ↔
      ∃ middle, run step first source = some middle ∧
        run step second middle = some target := by
  induction first generalizing source with
  | nil =>
      simp
  | cons label rest inductionHypothesis =>
      simp only [List.cons_append, run_cons_eq_some, inductionHypothesis]
      constructor
      · rintro ⟨next, stepped, middle, ran, finished⟩
        exact ⟨middle, ⟨next, stepped, ran⟩, finished⟩
      · rintro ⟨middle, ⟨next, stepped, ran⟩, finished⟩
        exact ⟨next, stepped, middle, ran, finished⟩

/-- A predicate kept by every step of a list of labels is kept by the run. -/
theorem run_preserves
    {kept : State → Prop} {labels : List Label}
    (preserved : ∀ label ∈ labels, ∀ source target,
      kept source → step label source = some target → kept target)
    {source target : State} (start : kept source)
    (ran : run step labels source = some target) :
    kept target := by
  induction labels generalizing source with
  | nil =>
      cases ran
      exact start
  | cons label rest inductionHypothesis =>
      obtain ⟨middle, stepped, remaining⟩ := run_cons_eq_some.mp ran
      have keptMiddle : kept middle :=
        preserved label List.mem_cons_self source middle start stepped
      exact
        inductionHypothesis
          (fun later member => preserved later (List.mem_cons_of_mem label member))
          keptMiddle remaining

def Along
    (step : Label → State → Option State) (fact : Label → State → Prop) :
    List Label → State → Prop
  | [], _ => True
  | label :: rest, source =>
      fact label source ∧
        ∀ middle, step label source = some middle → Along step fact rest middle

instance Along.decidable
    (step : Label → State → Option State) (fact : Label → State → Prop)
    [∀ label state, Decidable (fact label state)] :
    (labels : List Label) → (source : State) →
      Decidable (Along step fact labels source)
  | [], _ => .isTrue True.intro
  | label :: rest, source =>
      match (inferInstance : Decidable (fact label source)),
          stepped : step label source with
      | .isFalse fails, _ => .isFalse fun along => fails along.1
      | .isTrue holds, none =>
          .isTrue ⟨holds, fun _ reached => by rw [stepped] at reached; cases reached⟩
      | .isTrue holds, some middle =>
          match Along.decidable step fact rest middle with
          | .isTrue after =>
              .isTrue ⟨holds, fun _ reached => by
                rw [stepped] at reached
                cases reached
                exact after⟩
          | .isFalse fails =>
              .isFalse fun along => fails (along.2 middle stepped)

/-- A predicate kept by every step of which a fact holds is kept by every run
along which the fact holds. -/
theorem Along.preserves
    {fact : Label → State → Prop} {kept : State → Prop} {labels : List Label}
    (preserved : ∀ label source target, fact label source →
      kept source → step label source = some target → kept target)
    {source target : State} (along : Along step fact labels source)
    (start : kept source) (ran : run step labels source = some target) :
    kept target := by
  induction labels generalizing source with
  | nil =>
      cases ran
      exact start
  | cons label rest inductionHypothesis =>
      obtain ⟨middle, stepped, remaining⟩ := run_cons_eq_some.mp ran
      obtain ⟨holds, after⟩ := along
      exact
        inductionHypothesis (after middle stepped)
          (preserved label source middle holds start stepped) remaining

theorem Along.append
    {fact : Label → State → Prop} {first second : List Label}
    {source middle : State} (along : Along step fact (first ++ second) source)
    (ran : run step first source = some middle) :
    Along step fact first source ∧ Along step fact second middle := by
  induction first generalizing source with
  | nil =>
      cases ran
      exact ⟨True.intro, along⟩
  | cons label rest inductionHypothesis =>
      obtain ⟨next, stepped, remaining⟩ := run_cons_eq_some.mp ran
      obtain ⟨holds, after⟩ := along
      refine ⟨⟨holds, ?_⟩, (inductionHypothesis (after next stepped) remaining).2⟩
      intro other steps
      rw [stepped] at steps
      cases steps
      exact (inductionHypothesis (after next stepped) remaining).1

/-- What the states a run leads through show, in order. -/
def shown {Event : Type} (step : Label → State → Option State)
    (event : State → List Event) : List Label → State → List Event
  | [], _ => []
  | label :: rest, source =>
      match step label source with
      | none => []
      | some middle => event middle ++ shown step event rest middle

/-- An account of what has been shown that every step keeps is kept by a run. -/
theorem run_accounts
    {Event : Type} {event : State → List Event}
    {account : List Event → State → Prop} {labels : List Label}
    (preserved : ∀ label source target before, account before source →
      step label source = some target →
        account (before ++ event target) target)
    {source target : State} {before : List Event}
    (start : account before source)
    (ran : run step labels source = some target) :
    account (before ++ shown step event labels source) target := by
  induction labels generalizing source before with
  | nil =>
      cases ran
      rw [shown, List.append_nil]
      exact start
  | cons label rest inductionHypothesis =>
      obtain ⟨middle, stepped, remaining⟩ := run_cons_eq_some.mp ran
      have after := preserved label source middle before start stepped
      simp only [shown, stepped]
      rw [← List.append_assoc]
      exact inductionHypothesis after remaining

def recorded {Event : Type} (step : Label → State → Option State)
    (event : Label → State → List Event) : List Label → State → List Event
  | [], _ => []
  | label :: rest, source =>
      match step label source with
      | none => []
      | some middle => event label source ++ recorded step event rest middle

/-- An account of what has been recorded that every step keeps is kept by a run. -/
theorem run_records
    {Event : Type} {event : Label → State → List Event}
    {account : List Event → State → Prop} {labels : List Label}
    (preserved : ∀ label source target before, account before source →
      step label source = some target →
        account (before ++ event label source) target)
    {source target : State} {before : List Event}
    (start : account before source)
    (ran : run step labels source = some target) :
    account (before ++ recorded step event labels source) target := by
  induction labels generalizing source before with
  | nil =>
      cases ran
      rw [recorded, List.append_nil]
      exact start
  | cons label rest inductionHypothesis =>
      obtain ⟨middle, stepped, remaining⟩ := run_cons_eq_some.mp ran
      have after := preserved label source middle before start stepped
      simp only [recorded, stepped]
      rw [← List.append_assoc]
      exact inductionHypothesis after remaining

/-- A system whose every step lowers a well-founded rank runs for finitely many
steps. -/
theorem no_infinite_run
    {Rank : Type} [LT Rank] [WellFoundedLT Rank] (rank : State → Rank)
    (kept : State → Prop)
    (preserved : ∀ label source target, kept source →
      step label source = some target → kept target)
    (lowers : ∀ label source target, kept source →
      step label source = some target → rank target < rank source)
    {labels : Nat → Label} {trace : Nat → State} (start : kept (trace 0))
    (runs : ∀ moment,
      step (labels moment) (trace moment) = some (trace (moment + 1))) :
    False := by
  have holds : ∀ moment, kept (trace moment) := by
    intro moment
    induction moment with
    | zero =>
        exact start
    | succ moment inductionHypothesis =>
        exact preserved _ _ _ inductionHypothesis (runs moment)
  obtain ⟨moment, stays⟩ :=
    WellFounded.not_rel_apply_succ (r := (· < ·)) fun moment => rank (trace moment)
  exact stays (lowers _ _ _ (holds moment) (runs moment))

end Runs

def Reachable
    (step : Label → State → Option State) (initial : State → Prop)
    (state : State) : Prop :=
  ∃ source labels, initial source ∧ run step labels source = some state

namespace Reachable

variable {step : Label → State → Option State} {initial : State → Prop}

theorem start {state : State} (begins : initial state) :
    Reachable step initial state :=
  ⟨state, [], begins, rfl⟩

theorem extend
    {source target : State} {labels : List Label}
    (reached : Reachable step initial source)
    (ran : run step labels source = some target) :
    Reachable step initial target := by
  obtain ⟨first, before, begins, arrived⟩ := reached
  exact ⟨first, before ++ labels, begins,
    run_append_eq_some.mpr ⟨source, arrived, ran⟩⟩

theorem next
    {source target : State} {label : Label}
    (reached : Reachable step initial source)
    (stepped : step label source = some target) :
    Reachable step initial target :=
  have ran : run step [label] source = some target :=
    run_cons_eq_some.mpr ⟨target, stepped, rfl⟩
  reached.extend ran

/-- The induction rule of a system: an invariant holds initially and is kept by
every step, so it holds in every reachable state. -/
theorem invariant
    {kept : State → Prop}
    (base : ∀ state, initial state → kept state)
    (preserved : ∀ label source target,
      kept source → step label source = some target → kept target)
    {state : State} (reached : Reachable step initial state) :
    kept state := by
  obtain ⟨source, labels, begins, ran⟩ := reached
  exact
    run_preserves (fun label _ => preserved label) (base source begins) ran

end Reachable

end PeReview.Process
