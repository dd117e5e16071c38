import Mathlib.Data.List.Induction
import Mathlib.Data.List.Nodup

/-!
# The first item of each kind

What a loop keeps that passes over the items whose key it has seen, and when another
key tells the same items apart.
-/

namespace PeReview.Data

variable {Item Key Other : Type} [DecidableEq Key]

/-- The items whose key is neither among these nor that of an earlier item. -/
def firstsBy (key : Item → Key) : List Key → List Item → List Item
  | _, [] => []
  | seen, item :: rest =>
      if key item ∈ seen then firstsBy key seen rest
      else item :: firstsBy key (seen ++ [key item]) rest

section Firsts

variable {key : Item → Key} {seen : List Key} {items : List Item}

theorem firstsBy_append (key : Item → Key) (seen : List Key)
    (items others : List Item) :
    firstsBy key seen (items ++ others) =
      firstsBy key seen items ++
        firstsBy key (seen ++ (firstsBy key seen items).map key) others := by
  induction items generalizing seen with
  | nil =>
      simp [firstsBy]
  | cons item rest inductionHypothesis =>
      rw [List.cons_append, firstsBy, firstsBy]
      by_cases known : key item ∈ seen
      · rw [if_pos known, if_pos known, inductionHypothesis]
      · rw [if_neg known, if_neg known, inductionHypothesis, List.cons_append,
          List.map_cons, List.append_assoc, List.singleton_append]

theorem firstsBy_sublist : (firstsBy key seen items).Sublist items := by
  induction items generalizing seen with
  | nil =>
      exact List.Sublist.refl []
  | cons item rest inductionHypothesis =>
      rw [firstsBy]
      split
      · exact List.Sublist.cons item inductionHypothesis
      · exact List.Sublist.cons_cons item inductionHypothesis

theorem mem_of_mem_firstsBy {item : Item} (member : item ∈ firstsBy key seen items) :
    item ∈ items :=
  firstsBy_sublist.subset member

/-- The key of every item is kept. -/
theorem key_mem_firstsBy {item : Item} (member : item ∈ items) :
    key item ∈ seen ∨ key item ∈ (firstsBy key seen items).map key := by
  induction items generalizing seen with
  | nil =>
      cases member
  | cons first rest inductionHypothesis =>
      rw [firstsBy]
      by_cases known : key first ∈ seen
      · rw [if_pos known]
        rcases List.mem_cons.mp member with rfl | later
        · exact .inl known
        · exact inductionHypothesis later
      · rw [if_neg known, List.map_cons, List.mem_cons]
        rcases List.mem_cons.mp member with rfl | later
        · exact .inr (.inl rfl)
        · rcases @inductionHypothesis (seen ++ [key first]) later with early | kept
          · rcases List.mem_append.mp early with old | new
            · exact .inl old
            · exact .inr (.inl (List.mem_singleton.mp new))
          · exact .inr (.inr kept)

theorem key_mem_firstsBy_iff {wanted : Key} :
    wanted ∈ (firstsBy key [] items).map key ↔ wanted ∈ items.map key := by
  constructor
  · intro kept
    obtain ⟨item, member, same⟩ := List.mem_map.mp kept
    exact List.mem_map.mpr ⟨item, mem_of_mem_firstsBy member, same⟩
  · intro known
    obtain ⟨item, member, rfl⟩ := List.mem_map.mp known
    have found : key item ∈ [] ∨ key item ∈ (firstsBy key [] items).map key :=
      key_mem_firstsBy member
    exact found.resolve_left List.not_mem_nil

/-- What the last item adds. -/
theorem firstsBy_concat {item : Item} :
    firstsBy key [] (items ++ [item]) =
      if key item ∈ items.map key then firstsBy key [] items
      else firstsBy key [] items ++ [item] := by
  rw [firstsBy_append, List.nil_append, firstsBy]
  simp only [key_mem_firstsBy_iff]
  split
  · rw [firstsBy, List.append_nil]
  · rw [firstsBy]

end Firsts

section Agreement

variable (key : Item → Key) (other : Item → Other) (items : List Item)

/-- Every item that is passed over is like a kept one before it in another key. -/
def PassesRepeats : Prop :=
  ∀ before item after, items = before ++ item :: after →
    key item ∈ (firstsBy key [] before).map key →
      other item ∈ (firstsBy key [] before).map other

/-- Two keys find the same repetitions. -/
def SameRepeats : Prop :=
  ∀ before item after, items = before ++ item :: after →
    (key item ∈ before.map key ↔ other item ∈ before.map other)

variable {key other items}

theorem PassesRepeats.of_append {others : List Item}
    (passes : PassesRepeats key other (items ++ others)) :
    PassesRepeats key other items := by
  intro before item after split_
  apply passes before item (after ++ others)
  rw [split_, List.append_assoc, List.cons_append]

omit [DecidableEq Key] in
theorem SameRepeats.of_append {others : List Item}
    (same : SameRepeats key other (items ++ others)) : SameRepeats key other items := by
  intro before item after split_
  apply same before item (after ++ others)
  rw [split_, List.append_assoc, List.cons_append]

/-- Every item is like a kept one. -/
theorem PassesRepeats.covers (passes : PassesRepeats key other items) {item : Item}
    (member : item ∈ items) : other item ∈ (firstsBy key [] items).map other := by
  obtain ⟨before, after, split_⟩ := List.append_of_mem member
  have kept : other item ∈ (firstsBy key [] (before ++ [item])).map other := by
    rw [firstsBy_concat]
    split
    · rename_i known
      exact passes before item after split_ (key_mem_firstsBy_iff.mpr known)
    · rw [List.map_append]
      exact List.mem_append_right _ (List.mem_singleton_self _)
  have whole : items = (before ++ [item]) ++ after := by
    rw [split_, List.append_assoc, List.singleton_append]
  rw [whole, firstsBy_append, List.map_append]
  exact List.mem_append_left _ kept

theorem SameRepeats.passesRepeats (same : SameRepeats key other items) :
    PassesRepeats key other items := by
  induction items using List.reverseRecOn with
  | nil =>
      intro before item after split_
      exact absurd split_.symm (by simp)
  | append_singleton rest last inductionHypothesis =>
      have earlier := inductionHypothesis same.of_append
      intro before item after split_ known
      rcases List.eq_nil_or_concat after with rfl | ⟨front, final, rfl⟩
      · obtain ⟨rfl, equal⟩ := List.append_inj' split_ rfl
        cases equal
        have repeated := (same rest last [] rfl).mp (key_mem_firstsBy_iff.mp known)
        obtain ⟨item, member, likes⟩ := List.mem_map.mp repeated
        rw [← likes]
        exact earlier.covers member
      · rw [List.concat_eq_append, ← List.cons_append, ← List.append_assoc] at split_
        obtain ⟨shape, _⟩ := List.append_inj' split_ rfl
        exact earlier before item front shape known

/-- The kept items are all different in the other key, and only repetitions are
passed over, exactly when both keys find the same repetitions. -/
theorem firstsBy_agree_iff :
    PassesRepeats key other items ∧ ((firstsBy key [] items).map other).Nodup ↔
      SameRepeats key other items := by
  constructor
  · intro agrees before item after split_
    obtain ⟨passes, distinct⟩ := agrees
    have whole : items = (before ++ [item]) ++ after := by
      rw [split_, List.append_assoc, List.singleton_append]
    have early : PassesRepeats key other before := by
      rw [split_] at passes
      exact passes.of_append
    constructor
    · intro known
      have kept := passes before item after split_ (key_mem_firstsBy_iff.mpr known)
      obtain ⟨first, member, likes⟩ := List.mem_map.mp kept
      exact List.mem_map.mpr ⟨first, mem_of_mem_firstsBy member, likes⟩
    · intro repeated
      obtain ⟨first, member, likes⟩ := List.mem_map.mp repeated
      have covered := early.covers member
      apply Classical.byContradiction
      intro fresh
      rw [whole, firstsBy_append, firstsBy_concat, if_neg fresh, List.map_append,
        List.map_append] at distinct
      have apart := (List.nodup_append.mp distinct).1
      exact
        (List.nodup_append.mp apart).2.2 _ covered _ (List.mem_singleton_self _) likes
  · intro same
    refine ⟨same.passesRepeats, ?_⟩
    induction items using List.reverseRecOn with
    | nil =>
        exact List.nodup_nil
    | append_singleton rest last inductionHypothesis =>
        have distinct := inductionHypothesis same.of_append
        rw [firstsBy_concat]
        split
        · exact distinct
        · rename_i fresh
          rw [List.map_append]
          apply List.nodup_append.mpr
          refine ⟨distinct, List.nodup_singleton _, ?_⟩
          intro old keptOld new isLast equal
          cases List.mem_singleton.mp isLast
          apply fresh
          apply (same rest last [] rfl).mpr
          obtain ⟨item, member, likes⟩ := List.mem_map.mp keptOld
          exact List.mem_map.mpr ⟨item, mem_of_mem_firstsBy member, likes.trans equal⟩

end Agreement

end PeReview.Data
