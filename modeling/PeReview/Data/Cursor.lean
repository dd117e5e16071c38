import Mathlib.Data.List.Perm.Basic
import Mathlib.Data.List.Perm.Subperm
import Mathlib.Order.Closure

/-!
# Walking a collection page by page

A walk visits the elements of a fixed collection in descending order of a key,
one page at a time.  Between two pages it keeps a boundary, which is a key rounded
up, and the elements at the boundary it has visited: the next page is taken from
the elements below the boundary that are not excluded.
-/

namespace PeReview.Data

/-- What is left after the page is what has not been visited by then. -/
theorem mem_rest_iff {Element : Type} {all visited page rest : List Element}
    (split : ∀ element, element ∈ page ++ rest ↔
      element ∈ all ∧ element ∉ visited)
    (single : (page ++ rest).Nodup) {element : Element} (member : element ∈ all) :
    element ∈ rest ↔ element ∉ visited ++ page := by
  have apart := (List.nodup_append.mp single).2.2
  constructor
  · intro later seen
    rcases List.mem_append.mp seen with before | onPage
    · exact ((split element).mp (List.mem_append_right page later)).2 before
    · exact apart element onPage element later rfl
  · intro unseen
    rw [List.mem_append] at unseen
    push Not at unseen
    have still := (split element).mpr ⟨member, unseen.1⟩
    exact (List.mem_append.mp still).resolve_left unseen.2

variable {Element Key : Type} [LinearOrder Key]

/-- Where a walk stands.  The elements that are not yet visited are those that are
not excluded and whose key is at most the boundary. -/
structure Walk (key : Element → Key) (round : ClosureOperator Key)
    (all visited : List Element) (boundary : Option Key)
    (excluded : Element → Prop) : Prop where
  nodup : visited.Nodup
  subset : visited ⊆ all
  start : boundary = none → visited = []
  remaining : ∀ bound ∈ boundary, ∀ element ∈ all,
    element ∉ visited ↔ key element ≤ bound ∧ ¬excluded element
  above : ∀ bound ∈ boundary, ∀ element ∈ visited, bound ≤ round (key element)
  closed : ∀ bound ∈ boundary, round bound = bound

namespace Walk

variable {key : Element → Key} {round : ClosureOperator Key}
  {all visited page rest : List Element} {boundary : Option Key}
  {excluded : Element → Prop}

/-- A walk begins with nothing visited. -/
theorem begin (key : Element → Key) (round : ClosureOperator Key)
    (all : List Element) (excluded : Element → Prop) :
    Walk key round all [] none excluded where
  nodup := List.nodup_nil
  subset := List.nil_subset all
  start := fun _ => rfl
  remaining := by simp
  above := by simp
  closed := by simp

/-- An element is still to come when the next query matches it. -/
theorem not_mem_iff (walk : Walk key round all visited boundary excluded)
    {element : Element} (member : element ∈ all) :
    element ∉ visited ↔
      ∀ bound ∈ boundary, key element ≤ bound ∧ ¬excluded element := by
  cases boundary with
  | none =>
      simp [walk.start rfl]
  | some bound =>
      simpa using walk.remaining bound rfl element member

section Pages

variable
  (walk : Walk key round all visited boundary excluded)
  (distinct : all.Nodup)
  (split : ∀ element, element ∈ page ++ rest ↔
    element ∈ all ∧ element ∉ visited)
  (single : (page ++ rest).Nodup)

include walk split

theorem page_subset : visited ++ page ⊆ all := by
  intro element member
  rcases List.mem_append.mp member with seen | onPage
  · exact walk.subset seen
  · exact ((split element).mp (List.mem_append_left rest onPage)).1

include single

theorem page_nodup : (visited ++ page).Nodup := by
  refine List.nodup_append.mpr
    ⟨walk.nodup, (List.nodup_append.mp single).1, ?_⟩
  rintro element seen _ onPage rfl
  exact ((split element).mp (List.mem_append_left rest onPage)).2 seen

include distinct in
/-- A walk is over when nothing is left after a page: it has visited every element
exactly once. -/
theorem finish (isOver : rest = []) : (visited ++ page).Perm all := by
  refine
    (List.perm_ext_iff_of_nodup (walk.page_nodup split single) distinct).mpr ?_
  intro element
  constructor
  · intro seen
    exact walk.page_subset split seen
  · intro member
    by_contra unseen
    have left := (mem_rest_iff split single member).mpr unseen
    rw [isOver] at left
    cases left

/-- The walk goes on below the last key of a page rounded up.  The elements of
the page at that boundary are excluded, and the elements excluded before stay
excluded when the boundary is the same. -/
theorem next
    (ordered : (page ++ rest).Pairwise fun first second => key second ≤ key first)
    {last : Element} (ends : page.getLast? = some last)
    {still : Element → Prop}
    (excludes : ∀ element ∈ all, still element ↔
      (boundary = some (round (key last)) ∧ excluded element) ∨
        (element ∈ page ∧ round (key element) = round (key last))) :
    Walk key round all (visited ++ page) (some (round (key last))) still := by
  obtain ⟨front, rfl⟩ := List.getLast?_eq_some_iff.mp ends
  have onPage : last ∈ front ++ [last] := by simp
  -- Elements of the page are not below its last one, what is left is not above it.
  have pageAbove : ∀ element ∈ front ++ [last], key last ≤ key element := by
    intro element member
    rcases List.mem_append.mp member with earlier | final
    · exact
        (List.pairwise_append.mp (List.pairwise_append.mp ordered).1).2.2
          element earlier last (by simp)
    · obtain rfl := List.mem_singleton.mp final
      exact le_refl _
  have restBelow : ∀ element ∈ rest, key element ≤ key last := fun element later =>
    (List.pairwise_append.mp ordered).2.2 last onPage element later
  have lower : ∀ bound ∈ boundary, round (key last) ≤ bound := by
    intro bound present
    have matched := (split last).mp (List.mem_append_left rest onPage)
    have below :=
      ((walk.remaining bound present last matched.1).mp matched.2).1
    rw [← walk.closed bound present]
    exact round.monotone below
  have visitedAbove : ∀ element ∈ visited, round (key last) ≤ round (key element) := by
    intro element seen
    cases boundary with
    | none =>
        rw [walk.start rfl] at seen
        cases seen
    | some bound =>
        exact (lower bound rfl).trans (walk.above bound rfl element seen)
  have above : ∀ element ∈ visited ++ (front ++ [last]),
      round (key last) ≤ round (key element) := by
    intro element member
    rcases List.mem_append.mp member with seen | shown
    · exact visitedAbove element seen
    · exact round.monotone (pageAbove element shown)
  constructor
  · exact walk.page_nodup split single
  · exact walk.page_subset split
  · intro absent
    cases absent
  · rintro bound ⟨⟩ element member
    rw [← mem_rest_iff split single member]
    constructor
    · intro later
      refine ⟨(restBelow element later).trans (round.le_closure _), ?_⟩
      have unseen := (mem_rest_iff split single member).mp later
      rw [List.mem_append] at unseen
      push Not at unseen
      rw [excludes element member]
      rintro (⟨same, before⟩ | ⟨shown, _⟩)
      · exact ((walk.remaining _ same element member).mp unseen.1).2 before
      · exact unseen.2 shown
    · rintro ⟨below, free⟩
      rw [mem_rest_iff split single member]
      intro seen
      -- A visited element below the boundary is at the boundary.
      have level : round (key element) = round (key last) := by
        refine le_antisymm ?_ (above element seen)
        rw [← round.idempotent (key last)]
        exact round.monotone below
      apply free
      rw [excludes element member]
      rcases List.mem_append.mp seen with before | shown
      · left
        cases known : boundary with
        | none =>
            rw [walk.start known] at before
            cases before
        | some bound =>
            have same : bound = round (key last) := by
              refine le_antisymm ?_ (lower bound known)
              rw [← level]
              exact walk.above bound known element before
            subst same
            refine ⟨rfl, ?_⟩
            by_contra open_
            exact
              (walk.remaining _ known element member).mpr ⟨below, open_⟩ before
      · exact .inr ⟨shown, level⟩
  · rintro bound ⟨⟩ element member
    exact above element member
  · rintro bound ⟨⟩
    exact round.idempotent (key last)

end Pages

end Walk

end PeReview.Data
