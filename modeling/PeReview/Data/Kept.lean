import Mathlib.Data.List.Basic
import PeReview.Data.Dict

/-!
# Values that are kept

A cell, a list or a dictionary keeps what it has when a value that is present stays present,
at its place, and changes only as an order on the values lets it.
-/

namespace PeReview.Data

/-- A relation values may change along. -/
structure Growth {Value : Type} (grows : Value → Value → Prop) : Prop where
  refl : ∀ value, grows value value
  trans : ∀ {first second third}, grows first second → grows second third →
    grows first third

/-- A value that is present stays present and grows. -/
def KeptOption {Value : Type} (grows : Value → Value → Prop) (before after : Option Value) : Prop :=
  ∀ value, before = some value → ∃ later, after = some later ∧ grows value later

/-- The values of a list stay at their places and grow. -/
def KeptAt {Value : Type} (grows : Value → Value → Prop) (before after : List Value) : Prop :=
  ∀ index : Nat, KeptOption grows before[index]? after[index]?

/-- The values of a dictionary stay under their keys and grow. -/
def KeptKeys {Key Value : Type} [DecidableEq Key] (grows : Value → Value → Prop)
    (before after : Dict Key Value) : Prop :=
  ∀ key, KeptOption grows (Dict.get? before key) (Dict.get? after key)

section Cells

variable {Value : Type} {grows : Value → Value → Prop}

theorem growth_eq : Growth (@Eq Value) where
  refl _ := rfl
  trans := Eq.trans

theorem kept_none {after : Option Value} : KeptOption grows none after := by
  intro value present
  cases present

theorem kept_some {value later : Value} (grown : grows value later) :
    KeptOption grows (some value) (some later) := by
  intro other present
  cases present
  exact ⟨later, rfl, grown⟩

theorem Growth.kept (growth : Growth grows) : Growth (KeptOption grows) where
  refl before := by
    intro value present
    exact ⟨value, present, growth.refl value⟩
  trans := by
    intro first second third before after value present
    obtain ⟨middle, reached, grown⟩ := before value present
    obtain ⟨later, found, further⟩ := after middle reached
    exact ⟨later, found, growth.trans grown further⟩

/-- A cell that is written once. -/
theorem eq_of_kept {before after : Option Value} {value : Value}
    (kept : KeptOption (@Eq Value) before after) (present : before = some value) :
    after = some value := by
  obtain ⟨later, reached, same⟩ := kept value present
  rw [reached, same]

end Cells

section Lists

variable {Value : Type} {grows : Value → Value → Prop} {before after more : List Value}
  {index : Nat} {value later : Value}

theorem Growth.keptAt (growth : Growth grows) : Growth (KeptAt grows) where
  refl before := by
    intro index
    exact growth.kept.refl before[index]?
  trans := by
    intro first second third left right index
    exact growth.kept.trans (left index) (right index)

theorem keptAt_append (growth : Growth grows) : KeptAt grows before (before ++ more) := by
  intro index value present
  have inside := (List.getElem?_eq_some_iff.mp present).1
  refine ⟨value, ?_, growth.refl value⟩
  rw [List.getElem?_append_left inside, present]

theorem keptAt_set (growth : Growth grows) (present : before[index]? = some value)
    (grown : grows value later) : KeptAt grows before (before.set index later) := by
  intro other known found
  have inside := (List.getElem?_eq_some_iff.mp present).1
  by_cases same : index = other
  · rw [← same, present] at found
    cases found
    rw [← same, List.getElem?_set_self inside]
    exact ⟨later, rfl, grown⟩
  · rw [List.getElem?_set_ne same]
    exact ⟨known, found, growth.refl known⟩

theorem keptAt_map {change : Value → Value} (grown : ∀ value ∈ before, grows value (change value)) :
    KeptAt grows before (before.map change) := by
  intro index value present
  rw [List.getElem?_map, present]
  exact ⟨change value, rfl, grown value (List.mem_of_getElem? present)⟩

theorem keptAt_cons {head other : Value} {rest others : List Value} :
    KeptAt grows (head :: rest) (other :: others) ↔
      grows head other ∧ KeptAt grows rest others := by
  constructor
  · intro kept
    constructor
    · obtain ⟨later, present, grown⟩ := kept 0 head rfl
      cases present
      exact grown
    · intro index
      exact kept (index + 1)
  · rintro ⟨grown, kept⟩ index
    cases index with
    | zero => exact kept_some grown
    | succ index => exact kept index

/-- Values that stay counted are not lost. -/
theorem KeptAt.countP_le {counted : Value → Bool}
    (monotone : ∀ value later, grows value later → counted value = true →
      counted later = true)
    (kept : KeptAt grows before after) : before.countP counted ≤ after.countP counted := by
  induction before generalizing after with
  | nil => exact Nat.zero_le _
  | cons head rest inductionHypothesis =>
      cases after with
      | nil =>
          obtain ⟨_, present, _⟩ := kept 0 head rfl
          cases present
      | cons other others =>
          obtain ⟨grown, remaining⟩ := keptAt_cons.mp kept
          have tail := inductionHypothesis remaining
          rw [List.countP_cons, List.countP_cons]
          by_cases isCounted : counted head = true
          · rw [if_pos isCounted, if_pos (monotone head other grown isCounted)]
            omega
          · rw [if_neg isCounted]
            omega

end Lists

section Dictionaries

variable {Key Value : Type} [DecidableEq Key] {grows : Value → Value → Prop}
  {before after : Dict Key Value} {key : Key} {value : Value}

theorem Growth.keptKeys (growth : Growth grows) :
    Growth (@KeptKeys Key Value _ grows) where
  refl before := by
    intro key
    exact growth.kept.refl (Dict.get? before key)
  trans := by
    intro first second third left right key
    exact growth.kept.trans (left key) (right key)

theorem keptKeys_set (growth : Growth grows)
    (grown : ∀ old, Dict.get? before key = some old → grows old value) :
    KeptKeys grows before (Dict.set before key value) := by
  intro other old present
  rw [Dict.get?_set]
  by_cases same : key = other
  · rw [if_pos same]
    exact ⟨value, rfl, grown old (same ▸ present)⟩
  · rw [if_neg same]
    exact ⟨old, present, growth.refl old⟩

end Dictionaries

end PeReview.Data
