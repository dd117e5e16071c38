import Mathlib.Data.List.Sort
import Mathlib.Data.String.Basic
import PeReview.Data.JsonValue

/-!
# Values with sorted keys

What `json.dumps` with `sort_keys` writes of a value: two values give one text if and only
if they are the same but for the order of the fields of their objects.
-/

namespace PeReview.Data.Json

mutual

/-- The value with the fields of each object in the order of their keys. -/
def sorted : Json → Json
  | array items => array (sortedItems items)
  | object fields => object (sortedFields fields)
  | scalar => scalar

def sortedItems : List Json → List Json
  | [] => []
  | item :: rest => sorted item :: sortedItems rest

def sortedFields : List (String × Json) → List (String × Json)
  | [] => []
  | field :: rest =>
      (sortedFields rest).orderedInsert (fun first second => first.1 ≤ second.1)
        (field.1, sorted field.2)

end

section Sorted

variable {value other : Json} {items others : List Json} {fields : Dict String Json}
  {key : String}

theorem get?_orderedInsert (name : String) (inserted : Json) :
    Dict.get?
        (fields.orderedInsert (fun first second => first.1 ≤ second.1) (name, inserted)) key =
      if name = key then some inserted else Dict.get? fields key := by
  induction fields with
  | nil =>
      rfl
  | cons field rest inductionHypothesis =>
      obtain ⟨present, kept⟩ := field
      rw [List.orderedInsert_cons]
      split
      · rfl
      · rename_i behind
        -- The new field stands behind this one, so it has another key.
        have different : name ≠ present := by
          intro same
          apply behind
          dsimp only
          rw [same]
        simp only [Dict.get?]
        by_cases found : present = key
        · rw [if_pos found, if_pos found, if_neg]
          intro same
          exact different (same.trans found.symm)
        · rw [if_neg found, if_neg found]
          exact inductionHypothesis

/-- A field is found where it was. -/
theorem get?_sortedFields :
    Dict.get? (sortedFields fields) key = (Dict.get? fields key).map sorted := by
  induction fields with
  | nil =>
      rfl
  | cons field rest inductionHypothesis =>
      obtain ⟨name, kept⟩ := field
      rw [sortedFields, get?_orderedInsert, inductionHypothesis]
      simp only [Dict.get?]
      split <;> rfl

theorem fieldOr_sortedFields {default : Json} (plain : sorted default = default) :
    fieldOr (sortedFields fields) key default = sorted (fieldOr fields key default) := by
  unfold fieldOr
  rw [get?_sortedFields]
  cases Dict.get? fields key with
  | none => exact plain.symm
  | some value => rfl

theorem field_sortedFields : field (sortedFields fields) key = sorted (field fields key) :=
  fieldOr_sortedFields rfl

theorem sortedItems_eq : sortedItems items = items.map sorted := by
  induction items with
  | nil => rfl
  | cons item rest inductionHypothesis =>
      rw [sortedItems, inductionHypothesis, List.map_cons]

@[simp]
theorem text_sorted : (sorted value).text = value.text := by
  cases value <;> rfl

@[simp]
theorem exactInt_sorted : (sorted value).exactInt = value.exactInt := by
  cases value <;> rfl

@[simp]
theorem toInt_sorted : (sorted value).toInt = value.toInt := by
  cases value <;> rfl

@[simp]
theorem sorted_eq_null : sorted value = .null ↔ value = .null := by
  cases value <;> simp [sorted]

end Sorted

end PeReview.Data.Json
