import Mathlib.Data.List.Sort

/-!
# Ranks

The place of an item in a stable sort, told from the items as they were.
-/

namespace PeReview.Data

variable {Item : Type} [DecidableEq Item]

section Places

variable {items : List Item} {first second item : Item}

/-- An item stands at the number of items in front of it. -/
theorem countP_idxOf_lt (distinct : items.Nodup) (member : item ∈ items) :
    items.countP (fun other => decide (items.idxOf other < items.idxOf item)) =
      items.idxOf item := by
  induction items with
  | nil => cases member
  | cons head rest inductionHypothesis =>
      obtain ⟨fresh, others⟩ := List.nodup_cons.mp distinct
      rcases List.mem_cons.mp member with isHead | later
      · rw [isHead, List.idxOf_cons_self, List.countP_eq_zero]
        intro other _
        simp
      · have different : head ≠ item := by
          intro same
          rw [same] at fresh
          exact fresh later
        have shifted : rest.countP
              (fun other => decide ((head :: rest).idxOf other < (head :: rest).idxOf item)) =
            rest.countP (fun other => decide (rest.idxOf other < rest.idxOf item)) := by
          apply List.countP_congr
          intro other isIn
          have otherDifferent : head ≠ other := by
            intro same
            rw [same] at fresh
            exact fresh isIn
          rw [List.idxOf_cons_ne _ different, List.idxOf_cons_ne _ otherDifferent]
          simp
        rw [List.countP_cons_of_pos, shifted, inductionHypothesis others later,
          List.idxOf_cons_ne _ different]
        simp [List.idxOf_cons_ne _ different]

theorem idxOf_lt_of_pair_sublist (distinct : items.Nodup)
    (pair : [first, second].Sublist items) : items.idxOf first < items.idxOf second := by
  obtain ⟨front, rest, joined, isFirst, later⟩ := List.cons_sublist_iff.mp pair
  have isSecond : second ∈ rest := later.subset List.mem_cons_self
  rw [joined] at distinct ⊢
  have fresh : second ∉ front := by
    intro both
    exact (List.nodup_append.mp distinct).2.2 second both second isSecond rfl
  rw [List.idxOf_append_of_mem isFirst, List.idxOf_append_of_notMem fresh]
  exact Nat.lt_add_right _ (List.idxOf_lt_length_of_mem isFirst)

theorem pair_sublist_of_idxOf_lt (member : second ∈ items)
    (before : items.idxOf first < items.idxOf second) : [first, second].Sublist items := by
  induction items with
  | nil => cases member
  | cons head rest inductionHypothesis =>
      by_cases isFirst : head = first
      · rw [isFirst]
        apply List.Sublist.cons_cons
        rw [List.singleton_sublist]
        rcases List.mem_cons.mp member with same | later
        · rw [same] at before
          simp at before
        · exact later
      · have different : head ≠ second := by
          intro same
          rw [same, List.idxOf_cons_self] at before
          exact Nat.not_lt_zero _ before
        rw [List.idxOf_cons_ne _ isFirst, List.idxOf_cons_ne _ different] at before
        apply List.Sublist.cons
        apply inductionHypothesis _ (Nat.lt_of_succ_lt_succ before)
        exact (List.mem_cons.mp member).resolve_left (Ne.symm different)

end Places

section Sorted

variable (before : Item → Item → Prop) [DecidableRel before] (items : List Item)

def comesFirst (first second : Item) : Bool :=
  decide
    (first ≠ second ∧ before first second ∧
      (before second first → items.idxOf first < items.idxOf second))

/-- The number of items that are put in front of an item. -/
def rankOf (item : Item) : Nat :=
  items.countP fun other => comesFirst before items other item

variable {before items} [Std.Total before] [IsTrans Item before] {first second item : Item}
  {limit : Nat}

/-- Of two items in a stable sort, the one that comes first stands in front. -/
theorem idxOf_insertionSort_lt (distinct : items.Nodup) (isFirst : first ∈ items)
    (isSecond : second ∈ items) (comes : comesFirst before items first second = true) :
    (items.insertionSort before).idxOf first < (items.insertionSort before).idxOf second := by
  unfold comesFirst at comes
  rw [decide_eq_true_eq] at comes
  obtain ⟨different, sorts, ties⟩ := comes
  have sortedDistinct := (List.perm_insertionSort before items).nodup_iff.mpr distinct
  by_cases tie : before second first
  · exact idxOf_lt_of_pair_sublist sortedDistinct
      (List.pair_sublist_insertionSort sorts (pair_sublist_of_idxOf_lt isSecond (ties tie)))
  · by_contra behind
    have apart : (items.insertionSort before).idxOf second ≠
        (items.insertionSort before).idxOf first := by
      intro same
      exact different ((List.idxOf_inj ((List.mem_insertionSort before).mpr isSecond)).mp same).symm
    have pair := pair_sublist_of_idxOf_lt ((List.mem_insertionSort before).mpr isFirst)
      (Nat.lt_of_le_of_ne (Nat.not_lt.mp behind) apart)
    have sorted := (List.pairwise_insertionSort before items).sublist pair
    exact tie (List.rel_of_pairwise_cons sorted List.mem_cons_self)

omit [IsTrans Item before] in
/-- One of two items comes first. -/
theorem comesFirst_total (isFirst : first ∈ items) (different : first ≠ second) :
    comesFirst before items first second = true ∨
      comesFirst before items second first = true := by
  unfold comesFirst
  rw [decide_eq_true_eq, decide_eq_true_eq]
  have apart : items.idxOf first ≠ items.idxOf second := by
    intro same
    exact different ((List.idxOf_inj isFirst).mp same)
  have total := Std.Total.total (r := before) first second
  by_cases forward : before first second
  · by_cases backward : before second first
    · rcases Nat.lt_or_gt_of_ne apart with less | greater
      · exact Or.inl ⟨different, forward, fun _ => less⟩
      · exact Or.inr ⟨different.symm, backward, fun _ => greater⟩
    · exact Or.inl ⟨different, forward, fun tie => absurd tie backward⟩
  · exact Or.inr
      ⟨different.symm, total.resolve_left forward, fun tie => absurd tie forward⟩

/-- An item stands at its rank. -/
theorem idxOf_insertionSort (distinct : items.Nodup) (member : item ∈ items) :
    (items.insertionSort before).idxOf item = rankOf before items item := by
  have perm := List.perm_insertionSort before items
  rw [← countP_idxOf_lt (perm.nodup_iff.mpr distinct) (perm.mem_iff.mpr member),
    perm.countP_eq]
  apply List.countP_congr
  intro other isIn
  rw [decide_eq_true_eq]
  constructor
  · intro less
    have different : other ≠ item := by
      intro same
      rw [same] at less
      exact Nat.lt_irrefl _ less
    have one : comesFirst before items other item = true ∨
        comesFirst before items item other = true := comesFirst_total isIn different
    rcases one with comes | after
    · exact comes
    · have greater : (items.insertionSort before).idxOf item <
          (items.insertionSort before).idxOf other :=
        idxOf_insertionSort_lt distinct member isIn after
      omega
  · intro comes
    exact idxOf_insertionSort_lt distinct isIn member comes

/-- The first items of a stable sort are those of the lowest ranks. -/
theorem mem_take_insertionSort (distinct : items.Nodup) :
    item ∈ (items.insertionSort before).take limit ↔
      item ∈ items ∧ rankOf before items item < limit := by
  constructor
  · intro taken
    have member := (List.mem_insertionSort before).mp (List.mem_of_mem_take taken)
    rw [List.mem_take_iff_idxOf_lt ((List.mem_insertionSort before).mpr member),
      idxOf_insertionSort distinct member] at taken
    exact ⟨member, taken⟩
  · intro ranked
    rw [List.mem_take_iff_idxOf_lt ((List.mem_insertionSort before).mpr ranked.1),
      idxOf_insertionSort distinct ranked.1]
    exact ranked.2

end Sorted

end PeReview.Data
