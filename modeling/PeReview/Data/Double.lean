import Mathlib.Algebra.Order.Field.Power
import Mathlib.Data.Int.Log
import Mathlib.Data.Rat.Floor
import Mathlib.Tactic.Linarith
import PeReview.Data.JsonValue

/-!
# Arithmetic of doubles

The rounding of a number to the nearest double, the operations of `float`, and their
order.  The sign of a zero is left out: no operation here tells the zeros apart.
-/

namespace PeReview.Data

/-- The nearest integer; of two the even one. -/
def roundHalfEven (value : Rat) : Int :=
  let below := ⌊value⌋
  if value - below < 1 / 2 then below
  else if 1 / 2 < value - below then below + 1
  else if below % 2 = 0 then below
  else below + 1

section Integers

theorem roundHalfEven_cases (value : Rat) :
    roundHalfEven value = ⌊value⌋ ∧ value - ⌊value⌋ ≤ 1 / 2 ∨
      roundHalfEven value = ⌊value⌋ + 1 ∧ 1 / 2 ≤ value - ⌊value⌋ := by
  unfold roundHalfEven
  dsimp only
  by_cases small : value - ⌊value⌋ < 1 / 2
  · rw [if_pos small]
    exact Or.inl ⟨rfl, small.le⟩
  · rw [if_neg small]
    by_cases large : 1 / 2 < value - ⌊value⌋
    · rw [if_pos large]
      exact Or.inr ⟨rfl, large.le⟩
    · rw [if_neg large]
      split
      · exact Or.inl ⟨rfl, not_lt.mp large⟩
      · exact Or.inr ⟨rfl, not_lt.mp small⟩

theorem roundHalfEven_intCast (number : Int) : roundHalfEven number = number := by
  unfold roundHalfEven
  simp

theorem floor_le_roundHalfEven (value : Rat) : ⌊value⌋ ≤ roundHalfEven value := by
  rcases roundHalfEven_cases value with below | above
  · rw [below.1]
  · rw [above.1]
    omega

theorem roundHalfEven_le_floor_succ (value : Rat) : roundHalfEven value ≤ ⌊value⌋ + 1 := by
  rcases roundHalfEven_cases value with below | above
  · rw [below.1]
    omega
  · rw [above.1]

theorem roundHalfEven_mono {first second : Rat} (le : first ≤ second) :
    roundHalfEven first ≤ roundHalfEven second := by
  rcases (Int.floor_le_floor le).lt_or_eq with lower | same
  · have upper := roundHalfEven_le_floor_succ first
    have bound := floor_le_roundHalfEven second
    omega
  · rcases roundHalfEven_cases first with below | above
    · have bound := floor_le_roundHalfEven second
      rw [below.1, same]
      exact bound
    · rcases roundHalfEven_cases second with secondBelow | secondAbove
      · -- Both lie halfway, and are the same number.
        have equal : first = second := by
          rw [same] at above
          linarith [above.2, secondBelow.2]
        rw [equal]
      · rw [above.1, secondAbove.1, same]

/-- The nearest integer is at most a half away. -/
theorem abs_roundHalfEven_sub_le (value : Rat) : |(roundHalfEven value : Rat) - value| ≤ 1 / 2 := by
  have below := Int.floor_le value
  have above := Int.lt_floor_add_one value
  rw [abs_le]
  rcases roundHalfEven_cases value with ⟨same, near⟩ | ⟨same, near⟩
  · rw [same]
    constructor <;> linarith
  · rw [same]
    push_cast
    constructor <;> linarith

/-- An integer less than a half away is the nearest. -/
theorem roundHalfEven_of_near {value : Rat} {number : Int} (near : |value - number| < 1 / 2) :
    roundHalfEven value = number := by
  have rounded := abs_roundHalfEven_sub_le value
  have apart : |(roundHalfEven value : Rat) - number| < 1 := by
    have triangle := abs_sub_le (roundHalfEven value : Rat) value number
    linarith
  have whole : |roundHalfEven value - number| < 1 := by
    exact_mod_cast apart
  have none_ := Int.abs_lt_one_iff.mp whole
  omega

end Integers

/-- The exponent of the distance between the doubles about a number. -/
def spacing (value : Rat) : Int :=
  max (Int.log 2 |value| - 52) (-1074)

/-- The nearest multiple of that distance. -/
def roundDouble (value : Rat) : Rat :=
  roundHalfEven (value / 2 ^ spacing value) * 2 ^ spacing value

section Rounding

variable {value first second : Rat} {exponent : Int}

theorem two_zpow_pos (exponent : Int) : (0 : Rat) < 2 ^ exponent :=
  zpow_pos (by decide) exponent

/-- A multiple of the distance is a double. -/
theorem roundDouble_of_multiple (number : Int)
    (multiple : value = number * 2 ^ spacing value) :
    roundDouble value = value := by
  have positive := two_zpow_pos (spacing value)
  have quotient : value / 2 ^ spacing value = number := by
    rw [div_eq_iff positive.ne']
    exact multiple
  unfold roundDouble
  rw [quotient, roundHalfEven_intCast]
  exact multiple.symm

/-- A power of two is a multiple of a smaller one. -/
theorem zpow_div_zpow {smaller : Int} (le : smaller ≤ exponent) :
    ((2 : Rat) ^ exponent) / 2 ^ smaller = ((2 ^ (exponent - smaller).toNat : Int) : Rat) := by
  rw [← zpow_sub₀ (by decide : (2 : Rat) ≠ 0)]
  have same : exponent - smaller = ((exponent - smaller).toNat : Int) := by
    omega
  rw [same, zpow_natCast]
  push_cast
  rfl

theorem roundDouble_le_zpow (le : value ≤ 2 ^ exponent) (coarse : spacing value ≤ exponent) :
    roundDouble value ≤ 2 ^ exponent := by
  have positive := two_zpow_pos (spacing value)
  have quotient : value / 2 ^ spacing value ≤
      ((2 ^ (exponent - spacing value).toNat : Int) : Rat) := by
    rw [← zpow_div_zpow coarse]
    exact div_le_div_of_nonneg_right le positive.le
  have rounded := roundHalfEven_mono quotient
  rw [roundHalfEven_intCast] at rounded
  have cast : (roundHalfEven (value / 2 ^ spacing value) : Rat) ≤
      2 ^ exponent / 2 ^ spacing value := by
    rw [zpow_div_zpow coarse]
    exact Int.cast_le.mpr rounded
  unfold roundDouble
  rw [← le_div_iff₀ positive]
  exact cast

theorem zpow_le_roundDouble (le : 2 ^ exponent ≤ value) (coarse : spacing value ≤ exponent) :
    2 ^ exponent ≤ roundDouble value := by
  have positive := two_zpow_pos (spacing value)
  have quotient : ((2 ^ (exponent - spacing value).toNat : Int) : Rat) ≤
      value / 2 ^ spacing value := by
    rw [← zpow_div_zpow coarse]
    exact div_le_div_of_nonneg_right le positive.le
  have rounded := roundHalfEven_mono quotient
  rw [roundHalfEven_intCast] at rounded
  have cast : 2 ^ exponent / 2 ^ spacing value ≤
      (roundHalfEven (value / 2 ^ spacing value) : Rat) := by
    rw [zpow_div_zpow coarse]
    exact Int.cast_le.mpr rounded
  unfold roundDouble
  rw [← div_le_iff₀ positive]
  exact cast

theorem roundDouble_zero : roundDouble 0 = 0 := by
  apply roundDouble_of_multiple 0
  simp

theorem roundDouble_nonneg (nonneg : 0 ≤ value) : 0 ≤ roundDouble value := by
  have positive := two_zpow_pos (spacing value)
  have quotient : ((0 : Int) : Rat) ≤ value / 2 ^ spacing value := by
    rw [Int.cast_zero]
    exact div_nonneg nonneg positive.le
  have rounded := roundHalfEven_mono quotient
  rw [roundHalfEven_intCast] at rounded
  unfold roundDouble
  exact mul_nonneg (Int.cast_nonneg rounded) positive.le

theorem roundDouble_nonpos (nonpos : value ≤ 0) : roundDouble value ≤ 0 := by
  have positive := two_zpow_pos (spacing value)
  have quotient : value / 2 ^ spacing value ≤ ((0 : Int) : Rat) := by
    rw [Int.cast_zero]
    exact div_nonpos_of_nonpos_of_nonneg nonpos positive.le
  have rounded := roundHalfEven_mono quotient
  rw [roundHalfEven_intCast] at rounded
  unfold roundDouble
  exact mul_nonpos_of_nonpos_of_nonneg (Int.cast_nonpos.mpr rounded) positive.le

/-- Where the distance between the doubles grows, a power of two lies between the
numbers. -/
theorem roundDouble_mono_of_pos (positive : 0 < first) (le : first ≤ second) :
    roundDouble first ≤ roundDouble second := by
  have above := positive.trans_le le
  have logs : Int.log 2 first ≤ Int.log 2 second := Int.log_mono_right positive le
  have firstAbs := abs_of_pos positive
  have secondAbs := abs_of_pos above
  by_cases same : spacing first = spacing second
  · have scale := two_zpow_pos (spacing second)
    have quotient : first / 2 ^ spacing second ≤ second / 2 ^ spacing second :=
      div_le_div_of_nonneg_right le scale.le
    unfold roundDouble
    rw [same]
    exact mul_le_mul_of_nonneg_right (Int.cast_le.mpr (roundHalfEven_mono quotient))
      scale.le
  · have exponents : Int.log 2 first + 1 ≤ Int.log 2 second ∧
        spacing second = Int.log 2 second - 52 ∧
          spacing first ≤ Int.log 2 second := by
      unfold spacing at same ⊢
      rw [firstAbs, secondAbs] at *
      omega
    have lower : (2 : Rat) ^ Int.log 2 second ≤ second := by
      have bound := Int.zpow_log_le_self (b := 2) (by decide) above
      exact bound
    have upper : first ≤ 2 ^ Int.log 2 second := by
      have bound := Int.lt_zpow_succ_log_self (b := 2) (by decide) first
      have power : (2 : Rat) ^ (Int.log 2 first + 1) ≤ 2 ^ Int.log 2 second :=
        zpow_le_zpow_right₀ (by decide) exponents.1
      exact bound.le.trans power
    apply (roundDouble_le_zpow upper exponents.2.2).trans
    apply zpow_le_roundDouble lower
    omega

/-- Rounding keeps the order. -/
theorem roundDouble_mono (nonneg : 0 ≤ second) (le : first ≤ second) :
    roundDouble first ≤ roundDouble second := by
  by_cases positive : 0 < first
  · exact roundDouble_mono_of_pos positive le
  · exact (roundDouble_nonpos (not_lt.mp positive)).trans (roundDouble_nonneg nonneg)

/-- The integers of at most 53 bits are doubles. -/
theorem roundDouble_natCast {number : Nat} (small : number < 2 ^ 53) :
    roundDouble number = number := by
  have nonneg : (0 : Rat) ≤ number := Nat.cast_nonneg number
  have fine : spacing number ≤ 0 := by
    have log : Nat.log 2 number ≤ 52 := by
      apply Nat.lt_succ_iff.mp
      exact Nat.log_lt_of_lt_pow' (by decide) small
    unfold spacing
    rw [abs_of_nonneg nonneg, Int.log_natCast]
    omega
  have whole := zpow_div_zpow fine
  have positive := two_zpow_pos (spacing number)
  apply roundDouble_of_multiple (number * 2 ^ (0 - spacing number).toNat)
  rw [Int.cast_mul, ← whole, zpow_zero, mul_assoc, one_div_mul_cancel positive.ne', mul_one,
    Int.cast_natCast]

/-- A multiple of a coarser distance is a double as well. -/
theorem roundDouble_of_coarse (number : Int) (multiple : value = number * 2 ^ exponent)
    (coarse : spacing value ≤ exponent) : roundDouble value = value := by
  have positive := two_zpow_pos (spacing value)
  apply roundDouble_of_multiple (number * 2 ^ (exponent - spacing value).toNat)
  rw [Int.cast_mul, ← zpow_div_zpow coarse, mul_assoc, div_mul_cancel₀ _ positive.ne']
  exact multiple

theorem spacing_le (positive : 0 < value) (below : value < 2 ^ (exponent + 53))
    (normal : -1074 ≤ exponent) : spacing value ≤ exponent := by
  have log := (Int.lt_zpow_iff_log_lt (b := 2) (by decide) positive).mp below
  unfold spacing
  rw [abs_of_pos positive]
  omega

theorem le_zpow_spacing (positive : 0 < value) : value ≤ 2 ^ (spacing value + 53) := by
  have bound := Int.lt_zpow_succ_log_self (b := 2) (by decide) value
  have exponents : Int.log 2 value + 1 ≤ spacing value + 53 := by
    unfold spacing
    rw [abs_of_pos positive]
    omega
  have power : (2 : Rat) ^ (Int.log 2 value + 1) ≤ 2 ^ (spacing value + 53) :=
    zpow_le_zpow_right₀ (by decide) exponents
  exact bound.le.trans power

theorem roundDouble_zpow (normal : -1021 ≤ exponent) :
    roundDouble (2 ^ exponent) = 2 ^ exponent := by
  have power := two_zpow_pos exponent
  have log : Int.log 2 ((2 : Rat) ^ exponent) = exponent :=
    Int.log_zpow (b := 2) (by decide) exponent
  apply roundDouble_of_coarse 1
  · rw [Int.cast_one, one_mul]
  · unfold spacing
    rw [abs_of_pos power, log]
    omega

theorem roundDouble_two_pow (power : Nat) : roundDouble (2 ^ power) = 2 ^ power := by
  have known : roundDouble ((2 : Rat) ^ (power : Int)) = 2 ^ (power : Int) :=
    roundDouble_zpow (by omega)
  rw [zpow_natCast] at known
  exact known

/-- A rounded number is a double. -/
theorem roundDouble_roundDouble (nonneg : 0 ≤ value) :
    roundDouble (roundDouble value) = roundDouble value := by
  rcases nonneg.lt_or_eq with positive | isZero
  · have normal : -1074 ≤ spacing value := le_max_right _ _
    have top := roundDouble_le_zpow (le_zpow_spacing positive) (by omega)
    rcases (roundDouble_nonneg nonneg).lt_or_eq with above | none_
    · rcases top.lt_or_eq with below | same
      · exact roundDouble_of_coarse _ rfl (spacing_le above below normal)
      · rw [same]
        apply roundDouble_zpow
        omega
    · rw [← none_, roundDouble_zero]
  · rw [← isZero, roundDouble_zero, roundDouble_zero]

/-- A double is at most half the distance between the doubles away. -/
theorem abs_roundDouble_sub_le (nonneg : 0 ≤ value)
    (below : value < 2 ^ (exponent + 53)) (normal : -1074 ≤ exponent) :
    |roundDouble value - value| ≤ 2 ^ exponent / 2 := by
  rcases nonneg.lt_or_eq with positive | isZero
  · have scale := two_zpow_pos (spacing value)
    have fine : (2 : Rat) ^ spacing value ≤ 2 ^ exponent :=
      zpow_le_zpow_right₀ (by decide) (spacing_le positive below normal)
    have near := abs_roundHalfEven_sub_le (value / 2 ^ spacing value)
    have split_ : roundDouble value - value =
        (roundHalfEven (value / 2 ^ spacing value) - value / 2 ^ spacing value) *
          2 ^ spacing value := by
      unfold roundDouble
      rw [sub_mul, div_mul_cancel₀ _ scale.ne']
    rw [split_, abs_mul, abs_of_pos scale]
    have scaled := mul_le_mul_of_nonneg_right near scale.le
    linarith
  · rw [← isZero, roundDouble_zero, sub_zero, abs_zero]
    exact div_nonneg (two_zpow_pos exponent).le (by decide)

end Rounding

/-- The nearest double; from `2 ** 1024` on there is none. -/
def toDouble (value : Rat) : PyFloat :=
  if |roundDouble value| < 2 ^ Json.doubleExponent then .finite (roundDouble value)
  else .infinite (decide (value < 0))

/-- Below `2 ** 30` a number is converted to a double a small part of a microsecond away. -/
theorem toDouble_near {value : Rat} (nonneg : 0 ≤ value) (below : value < 2 ^ 30) :
    ∃ rounded, toDouble value = .finite rounded ∧ 0 ≤ rounded ∧
      |rounded - value| ≤ 1 / 2 ^ 24 := by
  have near : |roundDouble value - value| ≤ 2 ^ (-23 : Int) / 2 := by
    apply abs_roundDouble_sub_le nonneg _ (by decide)
    norm_num
    norm_num at below
    exact below
  have roundedNonneg := roundDouble_nonneg nonneg
  have small : roundDouble value < 2 ^ 31 := by
    have upper := (abs_le.mp near).2
    norm_num at upper below ⊢
    linarith
  have bounded : |roundDouble value| < 2 ^ Json.doubleExponent := by
    rw [abs_of_nonneg roundedNonneg]
    have power : (2 : Rat) ^ 31 ≤ 2 ^ Json.doubleExponent :=
      pow_le_pow_right₀ (by decide) (by decide)
    exact small.trans_le power
  refine ⟨roundDouble value, if_pos bounded, roundedNonneg, ?_⟩
  norm_num at near ⊢
  exact near

/-- The digits of a text that `float` reads, without its sign. -/
def doubleOfDigits (sign : Int) (chars : List Char) : Option PyFloat := do
  let (whole, rest) := takeDigits false chars
  let (fraction, rest) :=
    match rest with
    | '.' :: rest => takeDigits false rest
    | rest => ([], rest)
  let digits := whole ++ fraction
  let exponent ←
    match rest with
    | [] => some 0
    | 'e' :: rest | 'E' :: rest =>
        let (exponentSign, rest) := takeSign rest
        let (exponent, rest) := takeDigits false rest
        if exponent.isEmpty || !rest.isEmpty then none
        else some (exponentSign * ofDigits exponent)
    | _ => none
  if digits.isEmpty then none
  else some (toDouble (sign * ofDigits digits * 10 ^ (exponent - fraction.length)))

/-- `float(text)`, rounded. -/
def doubleOfText (text : String) : Option PyFloat :=
  let (sign, chars) := takeSign (pyStrip text).toList
  let word := chars.map Char.toLower
  if word = ['i', 'n', 'f'] ∨ word = ['i', 'n', 'f', 'i', 'n', 'i', 't', 'y'] then
    some (.infinite (decide (sign < 0)))
  else if word = ['n', 'a', 'n'] then some .nan
  else doubleOfDigits sign chars

namespace PyFloat

/-- `a + b`. -/
def add : PyFloat → PyFloat → PyFloat
  | nan, _ | _, nan => nan
  | finite first, finite second => toDouble (first + second)
  | infinite first, infinite second => if first = second then infinite first else nan
  | infinite negative, finite _ | finite _, infinite negative => infinite negative

/-- `-a`. -/
def neg : PyFloat → PyFloat
  | nan => nan
  | finite value => finite (-value)
  | infinite negative => infinite !negative

/-- `a - b`. -/
def sub (first second : PyFloat) : PyFloat :=
  first.add second.neg

/-- `a * b`. -/
def mul : PyFloat → PyFloat → PyFloat
  | nan, _ | _, nan => nan
  | finite first, finite second => toDouble (first * second)
  | infinite first, infinite second => infinite (first != second)
  | infinite negative, finite value | finite value, infinite negative =>
      if value = 0 then nan else infinite (negative != decide (value < 0))

/-- `a <= b`. -/
def le : PyFloat → PyFloat → Bool
  | nan, _ | _, nan => false
  | infinite true, _ | _, infinite false => true
  | finite first, finite second => first ≤ second
  | infinite false, _ | _, infinite true => false

/-- `a < b`. -/
def lt (first second : PyFloat) : Bool :=
  first.le second && !second.le first

/-- `min(a, b)`. -/
def min (first second : PyFloat) : PyFloat :=
  if second.lt first then second else first

/-- `max(a, b)`. -/
def max (first second : PyFloat) : PyFloat :=
  if first.lt second then second else first

/-- `0.0`. -/
def zero : PyFloat :=
  finite 0

/-- `float(number)` of an `int`. -/
def ofInt (number : Int) : Except PyException PyFloat :=
  match toDouble number with
  | finite value => .ok (finite value)
  | _ => .error .overflowError

section Order

variable {first second third : PyFloat}

theorem le_trans (left : first.le second = true) (right : second.le third = true) :
    first.le third = true := by
  cases first with
  | nan => cases left
  | infinite negative =>
      cases second with
      | nan => cases right
      | finite value =>
          cases negative with
          | false => cases left
          | true =>
              cases third with
              | nan => cases right
              | finite other | infinite other => rfl
      | infinite other =>
          cases negative with
          | true =>
              cases third with
              | nan => cases right
              | finite other | infinite other => rfl
          | false =>
              cases other with
              | true => cases left
              | false => exact right
  | finite value =>
      cases second with
      | nan => cases left
      | infinite other =>
          cases other with
          | true => cases left
          | false =>
              cases third with
              | nan | finite last => cases right
              | infinite last =>
                  cases last with
                  | true => cases right
                  | false => rfl
      | finite other =>
          cases third with
          | nan => cases right
          | infinite last =>
              cases last with
              | true => cases right
              | false => rfl
          | finite last =>
              simp only [PyFloat.le, decide_eq_true_eq] at left right ⊢
              exact left.trans right

theorem min_cases (first second : PyFloat) :
    first.min second = first ∨ first.min second = second := by
  unfold PyFloat.min
  split
  · exact Or.inr rfl
  · exact Or.inl rfl

theorem max_cases (first second : PyFloat) :
    first.max second = first ∨ first.max second = second := by
  unfold PyFloat.max
  split
  · exact Or.inr rfl
  · exact Or.inl rfl

theorem le_of_lt (lt : first.lt second = true) : first.le second = true := by
  unfold PyFloat.lt at lt
  rw [Bool.and_eq_true] at lt
  exact lt.1

theorem min_le_left (number : first.le first = true) : (first.min second).le first = true := by
  unfold PyFloat.min
  split
  · rename_i less
    exact le_of_lt less
  · exact number

theorem le_max_left (number : first.le first = true) : first.le (first.max second) = true := by
  unfold PyFloat.max
  split
  · rename_i less
    exact le_of_lt less
  · exact number

theorem max_le (left : first.le third = true) (right : second.le third = true) :
    (first.max second).le third = true := by
  rcases max_cases first second with same | same
  · rw [same]
    exact left
  · rw [same]
    exact right

/-- A number that is not less than another is at least that. -/
theorem le_of_not_lt (left : first.le first = true) (right : second.le second = true)
    (notLess : first.lt second = false) : second.le first = true := by
  cases first with
  | nan => cases left
  | infinite negative =>
      cases second with
      | nan => cases right
      | finite other =>
          cases negative with
          | true => cases notLess
          | false => rfl
      | infinite other =>
          cases other with
          | true => rfl
          | false =>
              cases negative with
              | true => cases notLess
              | false => rfl
  | finite value =>
      cases second with
      | nan => cases right
      | infinite other =>
          cases other with
          | true => rfl
          | false => cases notLess
      | finite other =>
          simp only [PyFloat.lt, PyFloat.le, Bool.and_eq_false_iff, decide_eq_false_iff_not,
            Bool.not_eq_false', decide_eq_true_eq] at notLess ⊢
          rcases notLess with greater | le
          · exact (not_le.mp greater).le
          · exact le

theorem min_le_right (left : first.le first = true) (right : second.le second = true) :
    (first.min second).le second = true := by
  unfold PyFloat.min
  by_cases less : second.lt first = true
  · rw [if_pos less]
    exact right
  · rw [if_neg less]
    exact le_of_not_lt right left (Bool.eq_false_iff.mpr less)

theorem le_min (left : first.le second = true) (right : first.le third = true) :
    first.le (second.min third) = true := by
  rcases min_cases second third with same | same
  · rw [same]
    exact left
  · rw [same]
    exact right

theorem le_max_right (left : first.le first = true) (right : second.le second = true) :
    second.le (first.max second) = true := by
  unfold PyFloat.max
  by_cases less : first.lt second = true
  · rw [if_pos less]
    exact right
  · rw [if_neg less]
    exact le_of_not_lt left right (Bool.eq_false_iff.mpr less)

theorem finite_min (low high : Rat) :
    (finite low).min (finite high) = finite (Min.min low high) := by
  unfold PyFloat.min
  rcases lt_or_ge high low with less | le
  · have below : (finite high).lt (finite low) = true := by
      simp [PyFloat.lt, PyFloat.le, less.le, less]
    rw [if_pos below, min_eq_right less.le]
  · have above : ¬(finite high).lt (finite low) = true := by
      simp [PyFloat.lt, PyFloat.le, le]
    rw [if_neg above, min_eq_left le]

theorem finite_max (low high : Rat) :
    (finite low).max (finite high) = finite (Max.max low high) := by
  unfold PyFloat.max
  rcases lt_or_ge low high with less | le
  · have below : (finite low).lt (finite high) = true := by
      simp [PyFloat.lt, PyFloat.le, less.le, less]
    rw [if_pos below, max_eq_right less.le]
  · have above : ¬(finite low).lt (finite high) = true := by
      simp [PyFloat.lt, PyFloat.le, le]
    rw [if_neg above, max_eq_left le]

end Order

def IsDouble : PyFloat → Prop
  | finite value => roundDouble value = value ∧ |value| < 2 ^ Json.doubleExponent
  | _ => True

section Monotone

variable {first second third fourth : PyFloat} {low high factor : Rat}

theorem toDouble_ne_nan (value : Rat) : toDouble value ≠ nan := by
  unfold toDouble
  split
  · exact PyFloat.noConfusion
  · exact PyFloat.noConfusion

theorem le_infinite (number : first ≠ nan) : first.le (infinite false) = true := by
  cases first with
  | nan => exact absurd rfl number
  | finite value => rfl
  | infinite negative => cases negative <;> rfl

theorem toDouble_le (nonneg : 0 ≤ high) (le : low ≤ high) :
    (toDouble low).le (toDouble high) = true := by
  have rounded := roundDouble_mono nonneg le
  by_cases finiteHigh : |roundDouble high| < 2 ^ Json.doubleExponent
  · have highIs : toDouble high = finite (roundDouble high) := if_pos finiteHigh
    by_cases finiteLow : |roundDouble low| < 2 ^ Json.doubleExponent
    · have lowIs : toDouble low = finite (roundDouble low) := if_pos finiteLow
      rw [lowIs, highIs]
      simpa [PyFloat.le] using rounded
    · have negative : low < 0 := by
        by_contra notNegative
        apply finiteLow
        rw [abs_of_nonneg (roundDouble_nonneg (not_lt.mp notNegative))]
        rw [abs_of_nonneg (roundDouble_nonneg nonneg)] at finiteHigh
        exact rounded.trans_lt finiteHigh
      have lowIs : toDouble low = infinite true := by
        unfold toDouble
        rw [if_neg finiteLow, decide_eq_true negative]
      rw [lowIs, highIs]
      rfl
  · have highIs : toDouble high = infinite false := by
      unfold toDouble
      rw [if_neg finiteHigh, decide_eq_false (not_lt.mpr nonneg)]
    rw [highIs]
    exact le_infinite (toDouble_ne_nan low)

theorem toDouble_zero : toDouble 0 = zero := by
  unfold toDouble
  rw [roundDouble_zero, if_pos]
  · rfl
  · rw [abs_zero]
    exact pow_pos (by decide) _

theorem zero_le_toDouble (nonneg : 0 ≤ high) : zero.le (toDouble high) = true := by
  rw [← toDouble_zero]
  exact toDouble_le nonneg nonneg

theorem isDouble_toDouble (nonneg : 0 ≤ high) : (toDouble high).IsDouble := by
  unfold toDouble
  split
  · rename_i bounded
    exact ⟨roundDouble_roundDouble nonneg, bounded⟩
  · trivial

/-- The integers of at most 53 bits. -/
theorem isDouble_natCast {number : Nat} (small : number < 2 ^ 53) :
    (finite number).IsDouble := by
  have nonneg : (0 : Rat) ≤ number := Nat.cast_nonneg number
  refine ⟨roundDouble_natCast small, ?_⟩
  rw [abs_of_nonneg nonneg]
  have power : (2 : Rat) ^ 53 ≤ 2 ^ Json.doubleExponent :=
    pow_le_pow_right₀ (by decide) (by decide)
  have cast : (number : Rat) < 2 ^ 53 := by
    exact_mod_cast small
  exact cast.trans_le power

theorem toDouble_of_isDouble (double : (finite high).IsDouble) :
    toDouble high = finite high := by
  unfold toDouble
  rw [double.1, if_pos double.2]

/-- A number up to a double is rounded to a double up to that. -/
theorem toDouble_finite (double : (finite high).IsDouble) (nonneg : 0 ≤ low)
    (le : low ≤ high) : ∃ value, toDouble low = finite value ∧ 0 ≤ value ∧ value ≤ high := by
  have rounded := roundDouble_mono (nonneg.trans le) le
  have roundedNonneg := roundDouble_nonneg nonneg
  rw [double.1] at rounded
  refine ⟨roundDouble low, if_pos ?_, roundedNonneg, rounded⟩
  have bound := double.2
  rw [abs_of_nonneg (nonneg.trans le)] at bound
  rw [abs_of_nonneg roundedNonneg]
  exact rounded.trans_lt bound

/-- The numbers from zero on. -/
theorem nonneg_cases (nonneg : zero.le first = true) :
    first = infinite false ∨ ∃ value, first = finite value ∧ 0 ≤ value := by
  cases first with
  | nan => cases nonneg
  | infinite negative =>
      cases negative with
      | true => cases nonneg
      | false => exact Or.inl rfl
  | finite value =>
      right
      exact ⟨value, rfl, by simpa [PyFloat.le, zero] using nonneg⟩

theorem le_self_of_nonneg (nonneg : zero.le first = true) : first.le first = true := by
  rcases nonneg_cases nonneg with isInfinite | ⟨value, isFinite, _⟩
  · rw [isInfinite]
    rfl
  · rw [isFinite]
    simp [PyFloat.le]

/-- A number from zero on is its maximum with zero. -/
theorem zero_max (nonneg : zero.le first = true) : zero.max first = first := by
  rcases nonneg_cases nonneg with isInfinite | ⟨value, isFinite, positive⟩
  · rw [isInfinite]
    rfl
  · rcases positive.lt_or_eq with above | isZero
    · have less : zero.lt (finite value) = true := by
        simp [PyFloat.lt, PyFloat.le, zero, above, positive]
      rw [isFinite]
      exact if_pos less
    · rw [isFinite, ← isZero]
      rfl

theorem zero_le_max (first : PyFloat) : zero.le (zero.max first) = true :=
  le_max_left rfl

theorem mul_mono (nonneg : zero.le first = true) (le : first.le second = true)
    (positive : 0 < factor) :
    (first.mul (finite factor)).le (second.mul (finite factor)) = true := by
  have infiniteMul : (infinite false).mul (finite factor) = infinite false := by
    simp [PyFloat.mul, positive.ne', positive.le]
  rcases nonneg_cases (le_trans nonneg le) with isInfinite | ⟨high, isFinite, highNonneg⟩
  · rw [isInfinite, infiniteMul]
    apply le_infinite
    rcases nonneg_cases nonneg with lowInfinite | ⟨low, lowFinite, lowNonneg⟩
    · rw [lowInfinite, infiniteMul]
      exact PyFloat.noConfusion
    · rw [lowFinite]
      exact toDouble_ne_nan _
  · rcases nonneg_cases nonneg with lowInfinite | ⟨low, lowFinite, lowNonneg⟩
    · rw [lowInfinite, isFinite] at le
      cases le
    · rw [lowFinite, isFinite] at le ⊢
      have order : low ≤ high := by simpa [PyFloat.le] using le
      exact toDouble_le (mul_nonneg highNonneg positive.le)
        (mul_le_mul_of_nonneg_right order positive.le)

theorem add_mono (left : first.le second = true) (right : third.le fourth = true)
    (leftNonneg : zero.le first = true) (rightNonneg : zero.le third = true) :
    (first.add third).le (second.add fourth) = true := by
  have number : first.add third ≠ nan := by
    rcases nonneg_cases leftNonneg with one | ⟨one, same, _⟩
    · rcases nonneg_cases rightNonneg with two | ⟨two, other, _⟩
      · simp [one, two, PyFloat.add]
      · simp [one, other, PyFloat.add]
    · rcases nonneg_cases rightNonneg with two | ⟨two, other, _⟩
      · simp [same, two, PyFloat.add]
      · rw [same, other]
        exact toDouble_ne_nan _
  rcases nonneg_cases (le_trans leftNonneg left) with one | ⟨high, same, highNonneg⟩
  · have sum : second.add fourth = infinite false := by
      rcases nonneg_cases (le_trans rightNonneg right) with two | ⟨two, other, _⟩
      · simp [one, two, PyFloat.add]
      · simp [one, other, PyFloat.add]
    rw [sum]
    exact le_infinite number
  · rcases nonneg_cases (le_trans rightNonneg right) with two | ⟨top, other, topNonneg⟩
    · have sum : second.add fourth = infinite false := by
        simp [same, two, PyFloat.add]
      rw [sum]
      exact le_infinite number
    · rcases nonneg_cases leftNonneg with lowInfinite | ⟨low, lowFinite, _⟩
      · rw [lowInfinite, same] at left
        cases left
      · rcases nonneg_cases rightNonneg with bottomInfinite | ⟨bottom, bottomFinite, _⟩
        · rw [bottomInfinite, other] at right
          cases right
        · rw [lowFinite, same] at left ⊢
          rw [bottomFinite, other] at right ⊢
          have leftOrder : low ≤ high := by simpa [PyFloat.le] using left
          have rightOrder : bottom ≤ top := by simpa [PyFloat.le] using right
          exact toDouble_le (add_nonneg highNonneg topNonneg)
            (by linarith)

end Monotone

/-- A power of two is converted up to the exponent a double reaches. -/
theorem ofInt_two_pow (power : Nat) :
    ofInt (2 ^ power) =
      if power < Json.doubleExponent then .ok (finite (2 ^ power)) else .error .overflowError := by
  have rounded : toDouble ((2 ^ power : Int) : Rat) =
      if power < Json.doubleExponent then finite (2 ^ power) else infinite false := by
    have nonneg : (0 : Rat) ≤ 2 ^ power := by positivity
    have bound : |(2 : Rat) ^ power| < 2 ^ Json.doubleExponent ↔ power < Json.doubleExponent := by
      rw [abs_of_nonneg nonneg]
      exact pow_lt_pow_iff_right₀ (by decide)
    unfold toDouble
    push_cast
    rw [roundDouble_two_pow, decide_eq_false (not_lt.mpr nonneg)]
    by_cases small : power < Json.doubleExponent
    · rw [if_pos small, if_pos (bound.mpr small)]
    · rw [if_neg small, if_neg (bound.not.mpr small)]
  unfold ofInt
  rw [rounded]
  by_cases small : power < Json.doubleExponent
  · simp only [if_pos small]
  · simp only [if_neg small]

end PyFloat

end PeReview.Data
