/-!
# Insertion-ordered dictionaries

Association lists with the semantics of a Python `dict`: assigning to a key that
is present keeps its position, a new key goes to the end.
-/

namespace PeReview.Data

/-- A dictionary as its items in insertion order. -/
abbrev Dict (Key Value : Type) := List (Key × Value)

namespace Dict

variable {Key Value : Type} [DecidableEq Key]

/-- `dict.get(key)`. -/
def get? : Dict Key Value → Key → Option Value
  | [], _ => none
  | (key, value) :: rest, wanted =>
      if key = wanted then some value else get? rest wanted

/-- `dict[key] = value`. -/
def set : Dict Key Value → Key → Value → Dict Key Value
  | [], key, value => [(key, value)]
  | (key, old) :: rest, wanted, value =>
      if key = wanted then (key, value) :: rest
      else (key, old) :: set rest wanted value

/-- `dict.values()`. -/
def values (dict : Dict Key Value) : List Value :=
  dict.map Prod.snd

@[simp]
theorem get?_nil (key : Key) : get? ([] : Dict Key Value) key = none :=
  rfl

@[simp]
theorem get?_set_self (dict : Dict Key Value) (key : Key) (value : Value) :
    get? (set dict key value) key = some value := by
  induction dict with
  | nil =>
      simp [set, get?]
  | cons item rest inductionHypothesis =>
      obtain ⟨first, old⟩ := item
      by_cases same : first = key
      · simp [set, get?, same]
      · simp [set, get?, same, inductionHypothesis]

@[simp]
theorem get?_set_of_ne (dict : Dict Key Value) {key other : Key}
    (value : Value) (different : key ≠ other) :
    get? (set dict key value) other = get? dict other := by
  induction dict with
  | nil =>
      simp [set, get?, different]
  | cons item rest inductionHypothesis =>
      obtain ⟨first, old⟩ := item
      by_cases same : first = key
      · subst same
        simp [set, get?, different]
      · by_cases wanted : first = other
        · subst wanted
          simp [set, get?, same]
        · simp [set, get?, same, wanted, inductionHypothesis]

theorem get?_set (dict : Dict Key Value) (key other : Key) (value : Value) :
    get? (set dict key value) other =
      if key = other then some value else get? dict other := by
  by_cases same : key = other
  · subst same
    simp
  · simp [same]

/-- The last assignment to a key counts. -/
@[simp]
theorem set_set (dict : Dict Key Value) (key : Key) (value other : Value) :
    set (set dict key value) key other = set dict key other := by
  induction dict with
  | nil =>
      simp [set]
  | cons item rest inductionHypothesis =>
      obtain ⟨first, old⟩ := item
      by_cases same : first = key
      · simp [set, same]
      · simp [set, same, inductionHypothesis]

theorem mem_set {dict : Dict Key Value} {key : Key} {value : Value}
    {item : Key × Value} (member : item ∈ set dict key value) :
    item ∈ dict ∨ item = (key, value) := by
  induction dict with
  | nil =>
      exact .inr (List.mem_singleton.mp member)
  | cons head rest inductionHypothesis =>
      obtain ⟨first, old⟩ := head
      by_cases same : first = key
      · simp only [set, same, if_true, List.mem_cons] at member
        rcases member with new | later
        · exact .inr new
        · exact .inl (List.mem_cons_of_mem _ later)
      · simp only [set, same, if_false, List.mem_cons] at member
        rcases member with old | later
        · exact .inl (old ▸ List.mem_cons_self)
        · rcases inductionHypothesis later with known | new
          · exact .inl (List.mem_cons_of_mem _ known)
          · exact .inr new

end Dict

end PeReview.Data
