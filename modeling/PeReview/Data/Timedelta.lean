import PeReview.Data.Double

/-!
# Durations

`timedelta(seconds=...)` and `total_seconds`, with the limit on the days of a duration.
-/

namespace PeReview.Data

/-- The microseconds of a finite number of seconds.  The whole seconds are counted
exactly and the rest as a `float`. -/
def microseconds (value : Rat) : Int :=
  let whole := value.num.tdiv value.den
  roundHalfEven (whole * 1000000 + roundDouble ((value - whole) * 1000000))

def dayMicroseconds : Int := 86400000000

/-- `timedelta(seconds=...)`, in microseconds. -/
def timedelta : PyFloat → Except PyException Int
  | .finite value =>
      if (microseconds value / dayMicroseconds).natAbs ≤ 999999999 then
        .ok (microseconds value)
      else .error .overflowError
  | .infinite _ => .error .overflowError
  | .nan => .error .valueError

/-- `delta.total_seconds()`. -/
def totalSeconds (delta : Int) : PyFloat :=
  toDouble (delta / 1000000)

section Microseconds

variable {first second value : Rat}

theorem tdiv_eq_floor (nonneg : 0 ≤ value) : value.num.tdiv value.den = ⌊value⌋ := by
  rw [Rat.floor_def', Int.tdiv_eq_ediv_of_nonneg (Rat.num_nonneg.mpr nonneg)]

/-- The rest of the seconds is less than a second, before and after its rounding. -/
theorem rest_bounds (value : Rat) :
    0 ≤ roundDouble ((value - ⌊value⌋) * 1000000) ∧
      roundDouble ((value - ⌊value⌋) * 1000000) ≤ 1000000 := by
  have below := Int.floor_le value
  have above := Int.lt_floor_add_one value
  constructor
  · apply roundDouble_nonneg
    linarith
  · have million : roundDouble (1000000 : Rat) = 1000000 := by
      have known := roundDouble_natCast (by decide : 1000000 < 2 ^ 53)
      push_cast at known
      exact known
    rw [← million]
    apply roundDouble_mono (by decide)
    rw [million]
    linarith

theorem microseconds_nonneg (nonneg : 0 ≤ value) : 0 ≤ microseconds value := by
  have rest := rest_bounds value
  have whole : (0 : Rat) ≤ ⌊value⌋ := Int.cast_nonneg (Int.floor_nonneg.mpr nonneg)
  have sum : ((0 : Int) : Rat) ≤
      ⌊value⌋ * 1000000 + roundDouble ((value - ⌊value⌋) * 1000000) := by
    rw [Int.cast_zero]
    linarith [rest.1]
  have rounded := roundHalfEven_mono sum
  rw [roundHalfEven_intCast] at rounded
  unfold microseconds
  rw [tdiv_eq_floor nonneg]
  exact rounded

/-- More seconds have more microseconds. -/
theorem microseconds_mono (nonneg : 0 ≤ first) (le : first ≤ second) :
    microseconds first ≤ microseconds second := by
  unfold microseconds
  rw [tdiv_eq_floor nonneg, tdiv_eq_floor (nonneg.trans le)]
  dsimp only
  apply roundHalfEven_mono
  rcases (Int.floor_le_floor le).lt_or_eq with lower | same
  · have step : ((⌊first⌋ + 1 : Int) : Rat) ≤ ⌊second⌋ := Int.cast_le.mpr lower
    push_cast at step
    linarith [(rest_bounds first).2, (rest_bounds second).1]
  · have part : (0 : Rat) ≤ (second - ⌊second⌋) * 1000000 := by
      linarith [Int.floor_le second]
    rw [same]
    have rounded : roundDouble ((first - ⌊second⌋) * 1000000) ≤
        roundDouble ((second - ⌊second⌋) * 1000000) :=
      roundDouble_mono part (by linarith)
    linarith

/-- A number of seconds near so many microseconds is converted to these. -/
theorem microseconds_of_near {number : Nat} (nonneg : 0 ≤ value)
    (near : |value - number / 1000000| ≤ 3 / 2 ^ 24) : microseconds value = number := by
  have below := Int.floor_le value
  have above := Int.lt_floor_add_one value
  have tiny : (2 : Rat) ^ (-33 : Int) / 2 = 1 / 17179869184 := by norm_num
  have share : (3 : Rat) / 2 ^ 24 = 3 / 16777216 := by norm_num
  have million : (1000000 : Rat) ≤ 2 ^ (-33 + 53 : Int) := by norm_num
  have rest : |roundDouble ((value - ⌊value⌋) * 1000000) - (value - ⌊value⌋) * 1000000| ≤
      2 ^ (-33 : Int) / 2 := by
    apply abs_roundDouble_sub_le (by linarith) _ (by decide)
    linarith
  rw [tiny, abs_le] at rest
  rw [share, abs_le] at near
  unfold microseconds
  rw [tdiv_eq_floor nonneg]
  apply roundHalfEven_of_near
  rw [abs_lt, Int.cast_natCast]
  constructor
  · linarith
  · linarith

/-- A whole number of seconds. -/
theorem microseconds_natCast (seconds : Nat) : microseconds seconds = seconds * 1000000 := by
  have near : |(seconds : Rat) - (seconds * 1000000 : Nat) / 1000000| ≤ 3 / 2 ^ 24 := by
    push_cast
    rw [mul_div_assoc, div_self (by decide), mul_one, sub_self, abs_zero]
    positivity
  have known := microseconds_of_near (Nat.cast_nonneg seconds) near
  rw [known, Nat.cast_mul]
  rfl

/-- The microseconds of durations of more than thirty years that are still told apart. -/
def tellable : Nat := 1000000000000000

theorem totalSeconds_near {delta : Nat} (small : delta ≤ tellable) :
    ∃ rounded, totalSeconds delta = .finite rounded ∧ 0 ≤ rounded ∧
      |rounded - delta / 1000000| ≤ 1 / 2 ^ 24 := by
  have cast : (delta : Rat) ≤ 1000000000000000 := by
    exact_mod_cast small
  have below : (delta : Rat) / 1000000 < 2 ^ 30 := by
    norm_num
    linarith
  have nonneg : (0 : Rat) ≤ (delta : Rat) / 1000000 := by positivity
  unfold totalSeconds
  rw [Int.cast_natCast]
  exact toDouble_near nonneg below

/-- Seconds are compared as the microseconds are. -/
theorem totalSeconds_le_iff {first second : Nat} (small : first ≤ tellable) :
    (totalSeconds first).le (totalSeconds second) = true ↔ first ≤ second := by
  constructor
  · intro le
    by_contra later
    have earlier : second + 1 ≤ first := Nat.not_le.mp later
    obtain ⟨low, lowIs, _, lowNear⟩ := totalSeconds_near small
    obtain ⟨high, highIs, _, highNear⟩ := totalSeconds_near (by omega : second ≤ tellable)
    rw [lowIs, highIs] at le
    have order : low ≤ high := by simpa [PyFloat.le] using le
    have apart : (second : Rat) + 1 ≤ first := by exact_mod_cast earlier
    have share : (1 : Rat) / 2 ^ 24 = 1 / 16777216 := by norm_num
    rw [share, abs_le] at lowNear highNear
    linarith
  · intro le
    apply PyFloat.toDouble_le
    · rw [Int.cast_natCast]
      positivity
    · have cast : (first : Rat) ≤ second := Nat.cast_le.mpr le
      rw [Int.cast_natCast, Int.cast_natCast]
      linarith

/-- What is left of a duration has the microseconds that are left. -/
theorem microseconds_sub {first second : Nat} (small : first ≤ tellable)
    (le : second ≤ first) :
    ∃ value, (totalSeconds first).sub (totalSeconds second) = .finite value ∧ 0 ≤ value ∧
      microseconds value = (first - second : Nat) := by
  obtain ⟨high, highIs, highNonneg, highNear⟩ := totalSeconds_near small
  obtain ⟨low, lowIs, lowNonneg, lowNear⟩ := totalSeconds_near (le.trans small)
  have order : low ≤ high := by
    have ordered := (totalSeconds_le_iff (le.trans small)).mpr le
    rw [lowIs, highIs] at ordered
    simpa [PyFloat.le] using ordered
  have nonneg : 0 ≤ high + -low := by linarith
  have cast : (first : Rat) ≤ 1000000000000000 := by
    exact_mod_cast small
  have below : high + -low < 2 ^ 30 := by
    norm_num at highNear ⊢
    rw [abs_le] at highNear
    linarith
  obtain ⟨value, valueIs, valueNonneg, valueNear⟩ := toDouble_near nonneg below
  have share : (1 : Rat) / 2 ^ 24 = 1 / 16777216 := by norm_num
  have three : (3 : Rat) / 2 ^ 24 = 3 / 16777216 := by norm_num
  refine ⟨value, ?_, valueNonneg, microseconds_of_near valueNonneg ?_⟩
  · rw [highIs, lowIs]
    exact valueIs
  · rw [share, abs_le] at highNear lowNear valueNear
    rw [three, abs_le, Nat.cast_sub le]
    constructor
    · linarith
    · linarith

theorem microseconds_min (firstNonneg : 0 ≤ first) (secondNonneg : 0 ≤ second) :
    microseconds (min first second) = min (microseconds first) (microseconds second) := by
  rcases le_total first second with le | le
  · rw [min_eq_left le, min_eq_left (microseconds_mono firstNonneg le)]
  · rw [min_eq_right le, min_eq_right (microseconds_mono secondNonneg le)]

theorem microseconds_max (firstNonneg : 0 ≤ first) (secondNonneg : 0 ≤ second) :
    microseconds (max first second) = max (microseconds first) (microseconds second) := by
  rcases le_total first second with le | le
  · rw [max_eq_right le, max_eq_right (microseconds_mono firstNonneg le)]
  · rw [max_eq_left le, max_eq_left (microseconds_mono secondNonneg le)]

end Microseconds

end PeReview.Data
