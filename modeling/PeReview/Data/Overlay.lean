import Mathlib.Data.List.Nodup
import PeReview.Data.Dict

/-!
# Overlaid dictionaries

Removing keys from a `dict`, laying one `dict` over another, and comparing two by
their values.
-/

namespace PeReview.Data.Dict

variable {Key Value : Type} [DecidableEq Key]

/-- A `dict` has each key once. -/
def Distinct (dict : Dict Key Value) : Prop :=
  (dict.map Prod.fst).Nodup

instance (dict : Dict Key Value) : Decidable dict.Distinct :=
  inferInstanceAs (Decidable (dict.map Prod.fst).Nodup)

/-- `dict.pop(key, None)`. -/
def erase (dict : Dict Key Value) (key : Key) : Dict Key Value :=
  dict.filter fun item => item.1 ≠ key

/-- `{**dict, **other}`. -/
def update (dict other : Dict Key Value) : Dict Key Value :=
  dict.map (fun item => (item.1, (get? other item.1).getD item.2)) ++
    other.filter fun item => (get? dict item.1).isNone

/-- `dict == other`. -/
def same [BEq Value] (dict other : Dict Key Value) : Bool :=
  (dict.all fun item => get? dict item.1 == get? other item.1) &&
    other.all fun item => get? dict item.1 == get? other item.1

/-- `None`, or equal values. -/
instance [BEq Value] [EquivBEq Value] : EquivBEq (Option Value) where
  rfl {first} := by
    cases first with
    | none =>
        rfl
    | some value =>
        exact (BEq.rfl : (value == value) = true)
  symm {first second} equal := by
    cases first with
    | none =>
        cases second with
        | none =>
            rfl
        | some value =>
            cases equal
    | some value =>
        cases second with
        | none =>
            cases equal
        | some other =>
            exact BEq.symm (a := value) equal
  trans {first second third} equal next := by
    cases first with
    | none =>
        cases second with
        | none =>
            exact next
        | some value =>
            cases equal
    | some value =>
        cases second with
        | none =>
            cases equal
        | some other =>
            cases third with
            | none =>
                cases next
            | some last =>
                exact BEq.trans (a := value) (b := other) equal next

section Lookup

variable {dict other : Dict Key Value} {key wanted : Key} {value : Value}

theorem get?_cons :
    get? ((key, value) :: dict) wanted =
      if key = wanted then some value else get? dict wanted :=
  rfl

theorem get?_append :
    get? (dict ++ other) wanted = (get? dict wanted).or (get? other wanted) := by
  induction dict with
  | nil =>
      rfl
  | cons item rest inductionHypothesis =>
      obtain ⟨first, old⟩ := item
      rw [List.cons_append, get?_cons, get?_cons]
      by_cases same : first = wanted
      · simp [same]
      · rw [if_neg same, if_neg same, inductionHypothesis]

/-- A key has a value exactly when it is a key. -/
theorem get?_eq_none : get? dict wanted = none ↔ wanted ∉ dict.map Prod.fst := by
  induction dict with
  | nil =>
      simp
  | cons item rest inductionHypothesis =>
      obtain ⟨first, old⟩ := item
      rw [get?_cons, List.map_cons, List.mem_cons, not_or]
      by_cases same : first = wanted
      · simp [same]
      · simp [same, Ne.symm same, inductionHypothesis]

theorem mem_of_get? (found : get? dict key = some value) : (key, value) ∈ dict := by
  induction dict with
  | nil =>
      cases found
  | cons item rest inductionHypothesis =>
      obtain ⟨first, old⟩ := item
      rw [get?_cons] at found
      by_cases same : first = key
      · rw [if_pos same] at found
        cases found
        rw [same]
        exact List.mem_cons_self
      · rw [if_neg same] at found
        exact List.mem_cons_of_mem _ (inductionHypothesis found)

/-- Items chosen by their key are found as before. -/
theorem get?_filter_key (keeps : Key → Bool) :
    get? (dict.filter fun item => keeps item.1) wanted =
      if keeps wanted then get? dict wanted else none := by
  induction dict with
  | nil =>
      simp
  | cons item rest inductionHypothesis =>
      obtain ⟨first, old⟩ := item
      rw [List.filter_cons, get?_cons]
      by_cases kept : keeps first
      · simp only [kept, if_true, get?_cons, inductionHypothesis]
        by_cases same : first = wanted
        · subst same
          simp [kept]
        · simp [same]
      · simp only [kept, Bool.false_eq_true, if_false, inductionHypothesis]
        by_cases same : first = wanted
        · subst same
          simp [kept]
        · simp [same]

/-- Items chosen by their key and value. -/
theorem get?_filter (distinct : dict.Distinct) (keeps : Key × Value → Bool) :
    get? (dict.filter keeps) wanted =
      (get? dict wanted).filter fun value => keeps (wanted, value) := by
  induction dict with
  | nil =>
      rfl
  | cons item rest inductionHypothesis =>
      obtain ⟨first, old⟩ := item
      obtain ⟨fresh, others⟩ := List.nodup_cons.mp distinct
      have filtered := inductionHypothesis others
      rw [get?_cons, List.filter_cons]
      by_cases same : first = wanted
      · subst same
        have absent : get? rest first = none := get?_eq_none.mpr fresh
        rw [absent, Option.filter_none] at filtered
        by_cases kept : keeps (first, old)
        · simp [kept, get?_cons, Option.filter]
        · simp [kept, filtered, Option.filter]
      · rw [if_neg same, ← filtered]
        by_cases kept : keeps (first, old)
        · simp [kept, get?_cons, same]
        · simp [kept]

theorem get?_erase :
    get? (erase dict key) wanted = if wanted = key then none else get? dict wanted := by
  rw [erase, get?_filter_key fun other => decide (other ≠ key)]
  by_cases same : wanted = key
  · simp [same]
  · simp [same]

/-- Removing a key that is absent changes nothing. -/
theorem erase_eq_self (absent : get? dict key = none) : erase dict key = dict := by
  unfold erase
  rw [List.filter_eq_self]
  induction dict with
  | nil =>
      intro item member
      cases member
  | cons item rest inductionHypothesis =>
      obtain ⟨found, value⟩ := item
      unfold get? at absent
      split at absent
      · cases absent
      · rename_i different
        rw [List.forall_mem_cons]
        exact ⟨decide_eq_true different, inductionHypothesis absent⟩

theorem get?_update :
    get? (update dict other) wanted = (get? other wanted).or (get? dict wanted) := by
  have mapped : ∀ items : Dict Key Value,
      get? (items.map fun item => (item.1, (get? other item.1).getD item.2)) wanted =
        (get? items wanted).map fun old => (get? other wanted).getD old := by
    intro items
    induction items with
    | nil =>
        rfl
    | cons item rest inductionHypothesis =>
        obtain ⟨first, old⟩ := item
        rw [List.map_cons, get?_cons, get?_cons, inductionHypothesis]
        by_cases same : first = wanted
        · simp [same]
        · simp [same]
  rw [update, get?_append, mapped, get?_filter_key fun key => (get? dict key).isNone]
  cases known : get? dict wanted with
  | none =>
      simp
  | some old =>
      cases get? other wanted with
      | none =>
          rfl
      | some new =>
          rfl

theorem distinct_set (distinct : dict.Distinct) : (set dict key value).Distinct := by
  induction dict with
  | nil =>
      simp [set, Distinct]
  | cons item rest inductionHypothesis =>
      obtain ⟨first, old⟩ := item
      obtain ⟨fresh, others⟩ := List.nodup_cons.mp distinct
      by_cases same : first = key
      · simp only [set, same, if_true]
        subst same
        exact distinct
      · simp only [set, same, if_false]
        apply List.nodup_cons.mpr
        refine ⟨?_, inductionHypothesis others⟩
        rw [← get?_eq_none] at fresh ⊢
        rw [get?_set, if_neg (Ne.symm same)]
        exact fresh

omit [DecidableEq Key] in
theorem distinct_filter (distinct : dict.Distinct) (keeps : Key × Value → Bool) :
    Distinct (dict.filter keeps) :=
  List.Nodup.sublist (List.filter_sublist.map _) distinct

theorem distinct_erase (distinct : dict.Distinct) : (erase dict key).Distinct :=
  distinct_filter distinct _

theorem distinct_update (distinct : dict.Distinct) (others : other.Distinct) :
    (update dict other).Distinct := by
  have added := distinct_filter others fun item => (get? dict item.1).isNone
  rw [Distinct, update, List.map_append, List.map_map]
  apply List.nodup_append.mpr
  refine ⟨distinct, added, ?_⟩
  intro key old new fresh same
  subst same
  obtain ⟨item, member, named⟩ := List.mem_map.mp fresh
  obtain ⟨_, absent⟩ := List.mem_filter.mp member
  rw [named, Option.isNone_iff_eq_none, get?_eq_none] at absent
  exact absent old

variable [BEq Value]

/-- Equal dictionaries have equal values. -/
theorem same_apply (equal : dict.same other = true) (wanted : Key) :
    (get? dict wanted == get? other wanted) = true := by
  simp only [same, Bool.and_eq_true, List.all_eq_true] at equal
  obtain ⟨left, right⟩ := equal
  cases known : get? dict wanted with
  | some value =>
      have found := left (wanted, value) (mem_of_get? known)
      rwa [known] at found
  | none =>
      cases there : get? other wanted with
      | none =>
          rfl
      | some value =>
          have found := right (wanted, value) (mem_of_get? there)
          rwa [known, there] at found

end Lookup

end PeReview.Data.Dict
