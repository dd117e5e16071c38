import Mathlib.Algebra.BigOperators.Group.List.Basic
import Mathlib.Algebra.Order.Ring.Nat

/-!
# Items laid end to end

A list of items with a size each, and the position every item begins at.
-/

namespace PeReview.Data

section Placed

variable {Item : Type} (size : Item → Nat)

/-- Where the items end that begin at zero. -/
def total (items : List Item) : Nat :=
  (items.map size).sum

def placed : Nat → List Item → List (Nat × Item)
  | _, [] => []
  | start, item :: rest => (start, item) :: placed (start + size item) rest

variable {size} {start : Nat} {items others : List Item}

@[simp]
theorem total_nil : total size ([] : List Item) = 0 :=
  rfl

@[simp]
theorem total_cons (item : Item) (rest : List Item) :
    total size (item :: rest) = size item + total size rest := by
  simp [total]

@[simp]
theorem total_append :
    total size (items ++ others) = total size items + total size others := by
  simp [total]

theorem placed_append :
    placed size start (items ++ others) =
      placed size start items ++ placed size (start + total size items) others := by
  induction items generalizing start with
  | nil =>
      simp [placed]
  | cons item rest inductionHypothesis =>
      simp only [List.cons_append, placed, inductionHypothesis, total_cons, Nat.add_assoc]

theorem placed_concat (item : Item) :
    placed size start (items ++ [item]) =
      placed size start items ++ [(start + total size items, item)] :=
  placed_append

theorem map_snd_placed : (placed size start items).map Prod.snd = items := by
  induction items generalizing start with
  | nil => rfl
  | cons item rest inductionHypothesis =>
      simp only [placed, List.map_cons, inductionHypothesis]

/-- The positions depend on the sizes alone. -/
theorem placed_map {Source : Type} {image : Source → Item} {sources : List Source} :
    placed size start (sources.map image) =
      (placed (fun source => size (image source)) start sources).map fun entry =>
        (entry.1, image entry.2) := by
  induction sources generalizing start with
  | nil => rfl
  | cons source rest inductionHypothesis =>
      simp only [List.map_cons, placed, inductionHypothesis]

theorem mem_of_mem_placed {entry : Nat × Item} (member : entry ∈ placed size start items) :
    entry.2 ∈ items := by
  have image : entry.2 ∈ (placed size start items).map Prod.snd :=
    List.mem_map_of_mem member
  rw [map_snd_placed] at image
  exact image

theorem exists_placed {item : Item} (member : item ∈ items) (start : Nat) :
    ∃ position, (position, item) ∈ placed size start items := by
  have image : item ∈ (placed size start items).map Prod.snd := by
    rw [map_snd_placed]
    exact member
  obtain ⟨entry, isPlaced, same⟩ := List.mem_map.mp image
  exact ⟨entry.1, by rw [← same]; exact isPlaced⟩

/-- An item lies where the list does. -/
theorem placed_within {entry : Nat × Item} (member : entry ∈ placed size start items) :
    start ≤ entry.1 ∧ entry.1 + size entry.2 ≤ start + total size items := by
  induction items generalizing start with
  | nil =>
      cases member
  | cons item rest inductionHypothesis =>
      rw [total_cons]
      rcases List.mem_cons.mp member with same | later
      · subst same
        dsimp only
        omega
      · have within := inductionHypothesis later
        omega

end Placed

/-- Two intervals, each with its beginning and its length, have a point in common. -/
def Overlaps (first second : Nat × Nat) : Prop :=
  first.1 < second.1 + second.2 ∧ second.1 < first.1 + first.2

end PeReview.Data
