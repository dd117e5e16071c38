import Mathlib.Data.List.Basic

/-!
# The first row of an order

`ORDER BY … LIMIT 1`: the row of a list that no other row comes before.
-/

namespace PeReview.Data

variable {Row : Type}

/-- The first row of a list in the order of a `before` test; of rows that are
not ordered the earlier one. -/
def firstBy (before : Row → Row → Bool) : List Row → Option Row
  | [] => none
  | row :: rest =>
      match firstBy before rest with
      | none => some row
      | some other => some (if before other row then other else row)

theorem firstBy_mem {before : Row → Row → Bool} {rows : List Row} {row : Row}
    (selected : firstBy before rows = some row) :
    row ∈ rows := by
  induction rows generalizing row with
  | nil =>
      cases selected
  | cons head rest inductionHypothesis =>
      simp only [firstBy] at selected
      cases later : firstBy before rest with
      | none =>
          simp only [later, Option.some.injEq] at selected
          simp [selected]
      | some other =>
          simp only [later, Option.some.injEq] at selected
          have member : other ∈ rest := inductionHypothesis later
          split at selected
          · subst selected
            exact List.mem_cons_of_mem head member
          · simp [selected]

@[simp]
theorem firstBy_eq_none {before : Row → Row → Bool} {rows : List Row} :
    firstBy before rows = none ↔ rows = [] := by
  cases rows with
  | nil => simp [firstBy]
  | cons head rest =>
      cases later : firstBy before rest <;> simp [firstBy, later]

/-- A row that comes before every other one is selected. -/
theorem firstBy_eq_some {before : Row → Row → Bool} {rows : List Row} {best : Row}
    (member : best ∈ rows)
    (beats : ∀ row ∈ rows, row ≠ best → before best row = true ∧ before row best = false) :
    firstBy before rows = some best := by
  induction rows with
  | nil =>
      cases member
  | cons head rest inductionHypothesis =>
      rw [List.forall_mem_cons] at beats
      by_cases later : best ∈ rest
      · rw [firstBy, inductionHypothesis later beats.2]
        by_cases same : head = best
        · simp [same]
        · simp [(beats.1 same).1]
      · have isHead : best = head := (List.mem_cons.mp member).resolve_right later
        rw [firstBy]
        cases selected : firstBy before rest with
        | none => rw [isHead]
        | some other =>
            have isOther := firstBy_mem selected
            have different : other ≠ best := by
              intro same
              rw [same] at isOther
              exact later isOther
            rw [← isHead]
            simp [(beats.2 other isOther different).2]

end PeReview.Data
