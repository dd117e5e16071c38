/-!
# Computations that raise

Inversion of the successful runs of `Except` computations.
-/

namespace PeReview.Data

variable {Error Value Final : Type}

theorem Except.bind_eq_ok {action : Except Error Value}
    {rest : Value → Except Error Final} {final : Final} :
    (action >>= rest) = .ok final ↔
      ∃ value, action = .ok value ∧ rest value = .ok final := by
  cases action with
  | error raised =>
      constructor
      · intro finished
        cases finished
      · rintro ⟨value, returned, _⟩
        cases returned
  | ok value =>
      constructor
      · intro finished
        exact ⟨value, rfl, finished⟩
      · rintro ⟨other, returned, finished⟩
        cases returned
        exact finished

@[simp]
theorem Except.error_bind (raised : Error)
    (rest : Value → Except Error Final) :
    ((.error raised : Except Error Value) >>= rest) = .error raised :=
  rfl

@[simp]
theorem Except.ok_bind (value : Value) (rest : Value → Except Error Final) :
    ((.ok value : Except Error Value) >>= rest) = rest value :=
  rfl

@[simp]
theorem Except.pure_eq_ok (value : Value) :
    (pure value : Except Error Value) = .ok value :=
  rfl

@[simp]
theorem Except.throw_eq_error (raised : Error) :
    (throw raised : Except Error Value) = .error raised :=
  rfl

/-- What every step of a fold keeps is kept by the fold. -/
theorem Except.foldlM_preserves {State Item : Type}
    {step : State → Item → Except Error State} {kept : State → Prop}
    {items : List Item}
    (preserved : ∀ item ∈ items, ∀ source target, kept source →
      step source item = .ok target → kept target)
    {source target : State} (start : kept source)
    (folded : items.foldlM step source = .ok target) :
    kept target := by
  induction items generalizing source with
  | nil =>
      cases folded
      exact start
  | cons item rest inductionHypothesis =>
      rw [List.foldlM_cons] at folded
      obtain ⟨middle, stepped, remaining⟩ := Except.bind_eq_ok.mp folded
      exact
        inductionHypothesis
          (fun later member => preserved later (List.mem_cons_of_mem item member))
          (preserved item List.mem_cons_self source middle start stepped) remaining

/-- Every value of a list computation is the value of one of its items. -/
theorem Except.exists_of_mem_mapM {Item : Type} {action : Item → Except Error Value}
    {items : List Item} {values : List Value}
    (computed : items.mapM action = .ok values) :
    ∀ value ∈ values, ∃ item ∈ items, action item = .ok value := by
  induction items generalizing values with
  | nil =>
      cases computed
      exact fun value member => (nomatch member)
  | cons item rest inductionHypothesis =>
      rw [List.mapM_cons] at computed
      obtain ⟨first, firstComputed, remaining⟩ := Except.bind_eq_ok.mp computed
      obtain ⟨others, othersComputed, same⟩ := Except.bind_eq_ok.mp remaining
      cases same
      intro value member
      rcases List.mem_cons.mp member with rfl | later
      · exact ⟨item, List.mem_cons_self, firstComputed⟩
      · obtain ⟨other, isIn, computes⟩ :=
          inductionHypothesis othersComputed value later
        exact ⟨other, List.mem_cons_of_mem item isIn, computes⟩

/-- Every item of a list computation has its value among the values. -/
theorem Except.exists_of_mapM_eq_ok {Item : Type}
    {action : Item → Except Error Value} {items : List Item} {values : List Value}
    (computed : items.mapM action = .ok values) :
    ∀ item ∈ items, ∃ value ∈ values, action item = .ok value := by
  induction items generalizing values with
  | nil =>
      exact fun item member => (nomatch member)
  | cons head rest inductionHypothesis =>
      rw [List.mapM_cons] at computed
      obtain ⟨first, firstComputed, remaining⟩ := Except.bind_eq_ok.mp computed
      obtain ⟨others, othersComputed, same⟩ := Except.bind_eq_ok.mp remaining
      cases same
      intro item member
      rcases List.mem_cons.mp member with rfl | later
      · exact ⟨first, List.mem_cons_self, firstComputed⟩
      · obtain ⟨value, isIn, computes⟩ :=
          inductionHypothesis othersComputed item later
        exact ⟨value, List.mem_cons_of_mem first isIn, computes⟩

/-- A raised error unless the condition holds. -/
def Except.require (condition : Bool) (raised : Error) : Except Error Unit :=
  if condition then .ok () else .error raised

@[simp]
theorem Except.require_eq_ok {condition : Bool} {raised : Error}
    {value : Unit} :
    Except.require condition raised = .ok value ↔ condition = true := by
  cases condition with
  | false =>
      simp [Except.require]
  | true =>
      simp [Except.require]

end PeReview.Data
