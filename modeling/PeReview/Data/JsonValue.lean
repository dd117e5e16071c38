import Mathlib.Algebra.Field.Rat
import PeReview.Data.Decimal
import PeReview.Data.Dict

/-!
# Decoded JSON

What `json.loads` makes of a text, and how Python reads a number from it.  A number
such as `1e999` is decoded to infinity, and `NaN` and `Infinity` are read as well.
-/

namespace PeReview.Data

/-- A `float`. -/
inductive PyFloat
  | finite (value : Rat)
  | infinite (negative : Bool)
  | nan
  deriving DecidableEq, Repr

/-- A decoded value; the fields of an object are in the order of the `dict`. -/
inductive Json
  | null
  | bool (value : Bool)
  | int (value : Int)
  | float (value : PyFloat)
  | string (text : String)
  | array (items : List Json)
  | object (fields : List (String × Json))
  deriving Repr

inductive PyException
  | typeError
  | valueError
  | overflowError
  | osError
  | runtimeError
  deriving DecidableEq, Repr

namespace Json

/-- `fields.get(key)`; an absent key reads as `None`. -/
def field (fields : Dict String Json) (key : String) : Json :=
  (Dict.get? fields key).getD .null

/-- `fields.get(key, default)`. -/
def fieldOr (fields : Dict String Json) (key : String) (default : Json) : Json :=
  (Dict.get? fields key).getD default

/-- `type(value) is int`, with the value. -/
def exactInt : Json → Option Int
  | int value => some value
  | _ => none

/-- `isinstance(value, str)`, with the text. -/
def text : Json → Option String
  | string text => some text
  | _ => none

/-- `isinstance(value, dict)`, with the fields. -/
def fields? : Json → Option (Dict String Json)
  | object fields => some fields
  | _ => none

def isInfinite : Json → Bool
  | float (.infinite _) => true
  | _ => false

/-- `int(value)`. -/
def toInt : Json → Except PyException Int
  | bool value => .ok (if value then 1 else 0)
  | int value => .ok value
  | float (.finite value) => .ok (value.num.tdiv value.den)
  | float (.infinite _) => .error .overflowError
  | float .nan => .error .valueError
  | string text =>
      match intOfText text with
      | some value => .ok value
      | none => .error .valueError
  | null | array _ | object _ => .error .typeError

/-- `int` overflows on an infinity and on nothing else. -/
theorem toInt_eq_overflowError {value : Json} :
    value.toInt = .error .overflowError ↔ value.isInfinite = true := by
  cases value with
  | float number =>
      cases number with
      | infinite negative => simp [toInt, isInfinite]
      | finite number | nan => simp [toInt, isInfinite]
  | string content =>
      cases read : intOfText content with
      | none | some value =>
          simp [toInt, isInfinite, read]
  | null | bool value | int value | array items | object fields =>
      simp [toInt, isInfinite]

mutual

def all (test : Json → Bool) : Json → Bool
  | array items => allItems test items
  | object fields => allFields test fields
  | scalar => test scalar

def allItems (test : Json → Bool) : List Json → Bool
  | [] => true
  | item :: rest => all test item && allItems test rest

def allFields (test : Json → Bool) : List (String × Json) → Bool
  | [] => true
  | item :: rest => all test item.2 && allFields test rest

end

section Scalars

variable {test other : Json → Bool}

mutual

theorem all_mono (weaker : ∀ scalar, test scalar = true → other scalar = true) :
    ∀ {value : Json}, all test value = true → all other value = true
  | array _, passed => allItems_mono weaker passed
  | object _, passed => allFields_mono weaker passed
  | null, passed => weaker _ passed
  | bool _, passed => weaker _ passed
  | int _, passed => weaker _ passed
  | float _, passed => weaker _ passed
  | string _, passed => weaker _ passed

theorem allItems_mono (weaker : ∀ scalar, test scalar = true → other scalar = true) :
    ∀ {items : List Json}, allItems test items = true → allItems other items = true
  | [], _ => rfl
  | item :: rest, passed => by
      simp only [allItems, Bool.and_eq_true] at passed ⊢
      exact ⟨all_mono weaker passed.1, allItems_mono weaker passed.2⟩

theorem allFields_mono (weaker : ∀ scalar, test scalar = true → other scalar = true) :
    ∀ {fields : List (String × Json)},
      allFields test fields = true → allFields other fields = true
  | [], _ => rfl
  | item :: rest, passed => by
      simp only [allFields, Bool.and_eq_true] at passed ⊢
      exact ⟨all_mono weaker passed.1, allFields_mono weaker passed.2⟩

end

theorem all_of_mem {items : List Json} (passed : allItems test items = true)
    {item : Json} (member : item ∈ items) : all test item = true := by
  induction items with
  | nil =>
      cases member
  | cons first rest inductionHypothesis =>
      simp only [allItems, Bool.and_eq_true] at passed
      rcases List.mem_cons.mp member with rfl | later
      · exact passed.1
      · exact inductionHypothesis passed.2 later

theorem allItems_of_forall {items : List Json}
    (passed : ∀ item ∈ items, all test item = true) : allItems test items = true := by
  induction items with
  | nil =>
      rfl
  | cons first rest inductionHypothesis =>
      rw [List.forall_mem_cons] at passed
      simp only [allItems, Bool.and_eq_true]
      exact ⟨passed.1, inductionHypothesis passed.2⟩

/-- The fields of an object pass what it passes, and so does a default. -/
theorem all_fieldOr {fields : Dict String Json} {key : String} {default : Json}
    (passed : allFields test fields = true) (absent : all test default = true) :
    all test (fieldOr fields key default) = true := by
  unfold fieldOr
  induction fields with
  | nil =>
      exact absent
  | cons item rest inductionHypothesis =>
      obtain ⟨name, value⟩ := item
      simp only [allFields, Bool.and_eq_true] at passed
      unfold Dict.get?
      split
      · exact passed.1
      · exact inductionHypothesis passed.2

end Scalars

/-- The binary exponent a double does not reach. -/
def doubleExponent : Nat := 1024

/-- The scalars `json.loads` makes: an `int` of not too many digits, and a `float` in
the range of a double. -/
def loadedScalar : Json → Bool
  | int value => value.natAbs < intTextBound
  | float (.finite value) => value.num.natAbs < 2 ^ doubleExponent * value.den
  | _ => true

/-- `json.loads` can make these fields. -/
def loadedFields (fields : Dict String Json) : Bool :=
  allFields loadedScalar fields

/-- The scalars `json.dumps` writes. -/
def writtenScalar : Json → Bool
  | int value => value.natAbs < intTextBound
  | _ => true

theorem writtenScalar_of_loaded {scalar : Json}
    (loaded : loadedScalar scalar = true) : writtenScalar scalar = true := by
  cases scalar with
  | int value => exact loaded
  | null | bool value | float value | string text | array items | object fields => rfl

theorem doubleBound_lt : 2 ^ doubleExponent < intTextBound := by
  have first : 2 ^ doubleExponent ≤ 10 ^ doubleExponent :=
    Nat.pow_le_pow_left (by decide) doubleExponent
  have second : 10 ^ doubleExponent < intTextBound :=
    Nat.pow_lt_pow_right (by decide) (by decide)
  exact lt_of_le_of_lt first second

theorem one_lt_intTextBound : 1 < intTextBound := by
  apply lt_of_le_of_lt _ doubleBound_lt
  exact Nat.one_le_two_pow

/-- Every `int` Python reads from a decoded value can be written. -/
theorem natAbs_toInt_lt {value : Json} {number : Int}
    (loaded : all loadedScalar value = true) (read_ : value.toInt = .ok number) :
    number.natAbs < intTextBound := by
  cases value with
  | bool value =>
      apply lt_of_le_of_lt _ one_lt_intTextBound
      cases value with
      | false | true =>
          cases read_
          decide
  | int value =>
      cases read_
      simp only [all, loadedScalar, decide_eq_true_eq] at loaded
      exact loaded
  | float value =>
      cases value with
      | finite value =>
          cases read_
          simp only [all, loadedScalar, decide_eq_true_eq] at loaded
          have quotient : (value.num.tdiv value.den).natAbs < 2 ^ doubleExponent := by
            rw [Int.natAbs_tdiv]
            apply (Nat.div_lt_iff_lt_mul value.den_pos).mpr
            exact loaded
          exact lt_trans quotient doubleBound_lt
      | infinite negative | nan =>
          cases read_
  | string content =>
      cases converted : intOfText content with
      | none =>
          simp [toInt, converted] at read_
      | some parsed =>
          simp only [toInt, converted, Except.ok.injEq] at read_
          subst read_
          exact natAbs_intOfText_lt converted
  | null | array items | object fields =>
      cases read_

end Json

end PeReview.Data
