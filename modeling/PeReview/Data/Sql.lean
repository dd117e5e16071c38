import Mathlib.Data.List.Basic

/-!
# Three-valued conditions

The truth values of SQL conditions over nullable columns.  A row is selected by
a `WHERE` clause only when its condition is true: both false and `NULL` drop it.
-/

namespace PeReview.Data.Sql

/-- A truth value; `none` is `NULL`. -/
abbrev Truth := Option Bool

/-- `column = value` over a nullable column. -/
def eq {Value : Type} [DecidableEq Value] (column : Option Value)
    (value : Value) : Truth :=
  column.map fun present => decide (present = value)

/-- `column IN (values)` over a nullable column, for values that are not null. -/
def isIn {Value : Type} [DecidableEq Value] (column : Option Value)
    (values : List Value) : Truth :=
  column.map fun present => decide (present ∈ values)

/-- `column <= bound` over a nullable column. -/
def le (column : Option Int) (bound : Int) : Truth :=
  column.map fun present => decide (present ≤ bound)

def and : Truth → Truth → Truth
  | some false, _ => some false
  | _, some false => some false
  | some true, some true => some true
  | _, _ => none

def or : Truth → Truth → Truth
  | some true, _ => some true
  | _, some true => some true
  | some false, some false => some false
  | _, _ => none

def not (truth : Truth) : Truth :=
  truth.map Bool.not

/-- The rows a `WHERE` clause keeps. -/
def holds (truth : Truth) : Bool :=
  truth = some true

section Conditions

variable {Value : Type} [DecidableEq Value]

@[simp]
theorem holds_some (condition : Bool) : holds (some condition) = condition := by
  cases condition <;> rfl

@[simp]
theorem holds_eq (column : Option Value) (value : Value) :
    holds (eq column value) = decide (column = some value) := by
  cases column <;> simp [holds, eq]

@[simp]
theorem holds_and (left right : Truth) :
    holds (and left right) = (holds left && holds right) := by
  rcases left with _ | _ | _ <;> rcases right with _ | _ | _ <;> rfl

@[simp]
theorem holds_or (left right : Truth) :
    holds (or left right) = (holds left || holds right) := by
  rcases left with _ | _ | _ <;> rcases right with _ | _ | _ <;> rfl

@[simp]
theorem holds_isIn (present : Value) (values : List Value) :
    holds (isIn (some present) values) = decide (present ∈ values) :=
  holds_some _

@[simp]
theorem holds_le_some (present bound : Int) :
    holds (le (some present) bound) = decide (present ≤ bound) :=
  holds_some _

@[simp]
theorem holds_le_none (bound : Int) : holds (le none bound) = false :=
  rfl

/-- Negation selects a row only when the condition is definitely false. -/
theorem holds_not {truth : Truth} :
    holds (not truth) = decide (truth = some false) := by
  rcases truth with _ | _ | _ <;> rfl

end Conditions

section Joins

variable {Left Right : Type}

/-- `LEFT OUTER JOIN`: each row on the left with every row on the right it matches,
or alone when it matches none. -/
def leftJoin (on : Left → Right → Bool) (left : List Left) (right : List Right) :
    List (Left × Option Right) :=
  left.flatMap fun row =>
    match right.filter (on row) with
    | [] => [(row, none)]
    | found => found.map fun other => (row, some other)

theorem filter_eq_toList_find? {on : Right → Bool} {right : List Right}
    (unique : right.Pairwise fun first second => on first → on second → False) :
    right.filter on = (right.find? on).toList := by
  induction right with
  | nil =>
      rfl
  | cons head rest inductionHypothesis =>
      rw [List.pairwise_cons] at unique
      by_cases matched : on head = true
      · have others : rest.filter on = [] := by
          rw [List.filter_eq_nil_iff]
          intro other member found
          exact unique.1 other member matched found
        rw [List.filter_cons_of_pos matched, List.find?_cons_of_pos matched, others]
        rfl
      · rw [List.filter_cons_of_neg matched, List.find?_cons_of_neg matched]
        exact inductionHypothesis unique.2

/-- Where a row matches at most one other, the join is a lookup. -/
theorem leftJoin_of_unique {on : Left → Right → Bool} {left : List Left}
    {right : List Right}
    (unique : ∀ row, right.Pairwise fun first second =>
      on row first → on row second → False) :
    leftJoin on left right =
      left.map fun row => (row, right.find? (on row)) := by
  unfold leftJoin
  rw [← List.flatMap_pure_eq_map]
  congr 1
  funext row
  rw [filter_eq_toList_find? (unique row)]
  cases found : right.find? (on row) with
  | none | some other =>
      simp [found]

end Joins

end PeReview.Data.Sql
