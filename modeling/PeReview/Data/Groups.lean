import PeReview.Data.Overlay

/-!
# Grouped items

A `dict` of lists, filled item by item with `dict.setdefault(key, []).append(value)`.
-/

namespace PeReview.Data.Dict

variable {Key Item Value : Type} [DecidableEq Key]

/-- `dict.setdefault(key, []).append(value)`. -/
def push (dict : Dict Key (List Value)) (key : Key) (value : Value) :
    Dict Key (List Value) :=
  set dict key ((get? dict key).getD [] ++ [value])

def groups (keyOf : Item → Key) (valueOf : Item → Value) (items : List Item) :
    Dict Key (List Value) :=
  items.foldl (fun dict item => push dict (keyOf item) (valueOf item)) []

section Groups

variable {keyOf : Item → Key} {valueOf : Item → Value} {dict : Dict Key (List Value)}
  {items : List Item} {key : Key}

theorem foldl_push_distinct (distinct : dict.Distinct) :
    (items.foldl (fun dict item => push dict (keyOf item) (valueOf item)) dict).Distinct := by
  induction items generalizing dict with
  | nil => exact distinct
  | cons item rest inductionHypothesis =>
      exact inductionHypothesis (distinct_set distinct)

/-- The values of a key after more items: those of its items are behind the old ones. -/
theorem getD_foldl_push :
    (get? (items.foldl (fun dict item => push dict (keyOf item) (valueOf item)) dict)
        key).getD [] =
      (get? dict key).getD [] ++
        (items.filter fun item => keyOf item = key).map valueOf := by
  induction items generalizing dict with
  | nil => simp
  | cons item rest inductionHypothesis =>
      rw [List.foldl_cons, inductionHypothesis]
      unfold push
      rw [get?_set, List.filter_cons]
      by_cases same : keyOf item = key
      · simp [same]
      · simp [same]

theorem groups_distinct : (groups keyOf valueOf items).Distinct :=
  foldl_push_distinct List.nodup_nil

theorem getD_groups (keyOf : Item → Key) (valueOf : Item → Value) (items : List Item)
    (key : Key) :
    (get? (groups keyOf valueOf items) key).getD [] =
      (items.filter fun item => keyOf item = key).map valueOf :=
  getD_foldl_push

/-- What is made of the groups, for one key. -/
theorem filter_flatMap_groups {Made : Type} {make : Key × List Value → List Made}
    {keyOfMade : Made → Key} (keyed : ∀ entry, ∀ made ∈ make entry, keyOfMade made = entry.1)
    (key : Key) (none_ : make (key, []) = []) (distinct : dict.Distinct) :
    (dict.flatMap make).filter (fun made => keyOfMade made = key) =
      make (key, (get? dict key).getD []) := by
  induction dict with
  | nil => exact none_.symm
  | cons entry rest inductionHypothesis =>
      obtain ⟨first, values⟩ := entry
      obtain ⟨fresh, others⟩ := List.nodup_cons.mp distinct
      rw [List.flatMap_cons, List.filter_append, inductionHypothesis others, get?_cons]
      by_cases same : first = key
      · have absent : get? rest key = none := by
          rw [← same]
          exact get?_eq_none.mpr fresh
        have all : (make (first, values)).filter (fun made => keyOfMade made = key) =
            make (first, values) := by
          rw [List.filter_eq_self]
          intro made member
          rw [keyed _ made member]
          exact decide_eq_true same
        rw [all, absent, if_pos same, Option.getD_none, none_, List.append_nil,
          Option.getD_some, same]
      · have none_ : (make (first, values)).filter (fun made => keyOfMade made = key) = [] := by
          rw [List.filter_eq_nil_iff]
          intro made member
          rw [keyed _ made member]
          simpa using same
        rw [none_, if_neg same, List.nil_append]

end Groups

end PeReview.Data.Dict
