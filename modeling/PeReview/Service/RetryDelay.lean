import PeReview.Data.Except
import PeReview.Data.Timedelta
import PeReview.Retry

/-!
# Retry delays

`exponential_backoff` of `retry.py`, `_retry_after_seconds` of `gerrit/client.py`, the
moment a delay ends, and the delays between two connections of `GerritEventStream.events`.
-/

namespace PeReview

open PeReview.Data

/-- `_retry_after_seconds` of a header received at this time.  `parsedate` is
`parsedate_to_datetime`, in microseconds since the epoch, without the texts it rejects. -/
def retryAfterSeconds (parsedate : String → Option Int) (received : Time)
    (header : Option String) : Option PyFloat := do
  let value ← header
  if value = "" then none
  else
    match doubleOfText value with
    | some seconds => some (PyFloat.zero.max seconds)
    | none =>
        let retryAt ← parsedate value
        some (PyFloat.zero.max (totalSeconds (retryAt - received)))

/-- The fields of `RetrySettings` the backoff reads, within their bounds. -/
structure BackoffSettings where
  baseSeconds : PyFloat
  maxSeconds : PyFloat
  jitterRatio : Rat
  base_pos : PyFloat.zero.lt baseSeconds = true
  max_pos : PyFloat.zero.lt maxSeconds = true
  jitter_nonneg : 0 ≤ jitterRatio
  jitter_le_one : jitterRatio ≤ 1
  base_isDouble : baseSeconds.IsDouble
  max_isDouble : maxSeconds.IsDouble

/-- Where in its interval `random.uniform` draws a number; the end may be included. -/
structure Draw where
  position : Rat
  nonneg : 0 ≤ position
  le_one : position ≤ 1

/-- `random.uniform`.  Without two finite ends it is what `a + (b - a) * random()` is. -/
def uniform (draw : Draw) : PyFloat → PyFloat → PyFloat
  | .finite low, .finite high => .finite (low + (high - low) * draw.position)
  | low, high => low.add ((high.sub low).mul (.finite draw.position))

namespace BackoffSettings

variable (backoff : BackoffSettings)

def raw (factor : PyFloat) : PyFloat :=
  backoff.maxSeconds.min (backoff.baseSeconds.mul factor)

/-- `exponential_backoff`. -/
def exponentialBackoff (attempt : Nat) (draw : Draw) : Except PyException PyFloat := do
  let factor ← PyFloat.ofInt (2 ^ (attempt - 1))
  let raw := backoff.raw factor
  if backoff.jitterRatio ≤ 0 then .ok raw
  else
    let delta := raw.mul (.finite backoff.jitterRatio)
    .ok (PyFloat.zero.max (uniform draw (raw.sub delta) (raw.add delta)))

/-- A delay with the whole jitter on top. -/
def jittered (raw : PyFloat) : PyFloat :=
  if backoff.jitterRatio ≤ 0 then raw
  else raw.add (raw.mul (.finite backoff.jitterRatio))

/-- `max_seconds` times `1 + jitter_ratio`. -/
def bound : PyFloat :=
  backoff.jittered backoff.maxSeconds

/-- The longest delay at an attempt.  An infinite delay has no jitter: its interval
begins at `nan`, and the delay is none. -/
def longest (attempt : Nat) : PyFloat :=
  let raw := backoff.raw (.finite (2 ^ (attempt - 1)))
  match decide (backoff.jitterRatio ≤ 0), raw with
  | false, .infinite _ => .zero
  | _, raw => backoff.jittered raw

end BackoffSettings

/-- The last moment a `datetime` can be: the end of the year 9999. -/
def lastMoment : Time := 253402300799999999

/-- `now + timedelta(seconds=...)` for a delay that is not negative. -/
def datetimeAfter (now : Time) (seconds : PyFloat) : Except PyException Time := do
  let delta ← timedelta seconds
  if now + delta ≤ lastMoment then .ok (now + delta).toNat
  else .error .overflowError

/-- The moment so many seconds from now is a `datetime`. -/
def Representable (now : Time) (seconds : PyFloat) : Prop :=
  ∃ value, seconds = .finite value ∧ now + microseconds value ≤ lastMoment

section Moments

variable {now : Time} {first second : PyFloat}

theorem timedelta_eq_ok {value : Rat} (nonneg : 0 ≤ value)
    (within : microseconds value ≤ lastMoment) :
    timedelta (.finite value) = .ok (microseconds value) := by
  have positive := microseconds_nonneg nonneg
  have days : (microseconds value / dayMicroseconds).natAbs ≤ 999999999 := by
    unfold dayMicroseconds
    unfold lastMoment at within
    omega
  exact if_pos days

/-- A delay that is not negative ends at a `datetime`, or the arithmetic overflows. -/
theorem datetimeAfter_eq_ok (nonneg : PyFloat.zero.le first = true) {moment : Time} :
    datetimeAfter now first = .ok moment ↔
      ∃ value, first = .finite value ∧ now + microseconds value ≤ lastMoment ∧
        moment = (now + microseconds value).toNat := by
  rcases PyFloat.nonneg_cases nonneg with isInfinite | ⟨value, isFinite, positive⟩
  · rw [isInfinite]
    constructor
    · intro reached
      cases reached
    · rintro ⟨value, impossible, _⟩
      cases impossible
  · rw [isFinite]
    constructor
    · intro reached
      obtain ⟨delta, converted, added⟩ := Except.bind_eq_ok.mp reached
      have known : delta = microseconds value := by
        simp only [timedelta] at converted
        split at converted
        · cases converted
          rfl
        · cases converted
      subst known
      split at added
      · rename_i within
        cases added
        exact ⟨value, rfl, within, rfl⟩
      · cases added
    · rintro ⟨other, same, within, ends⟩
      cases same
      have delta : timedelta (.finite value) = .ok (microseconds value) := by
        apply timedelta_eq_ok positive
        omega
      unfold datetimeAfter
      rw [delta, Except.ok_bind, if_pos within, ends]

theorem representable_iff (nonneg : PyFloat.zero.le first = true) :
    Representable now first ↔ ∃ moment, datetimeAfter now first = .ok moment := by
  constructor
  · intro representable
    obtain ⟨value, same, within⟩ := representable
    exact ⟨_, (datetimeAfter_eq_ok nonneg).mpr ⟨value, same, within, rfl⟩⟩
  · intro reached
    obtain ⟨moment, ends⟩ := reached
    obtain ⟨value, same, within, _⟩ := (datetimeAfter_eq_ok nonneg).mp ends
    exact ⟨value, same, within⟩

/-- The moment a delay ends is a `datetime` from now on. -/
theorem datetimeAfter_bounds (nonneg : PyFloat.zero.le first = true) {moment : Time}
    (reached : datetimeAfter now first = .ok moment) :
    now ≤ moment ∧ moment ≤ lastMoment := by
  obtain ⟨value, same, within, ends⟩ := (datetimeAfter_eq_ok nonneg).mp reached
  have positive : 0 ≤ microseconds value := by
    apply microseconds_nonneg
    rw [same] at nonneg
    simpa [PyFloat.le, PyFloat.zero] using nonneg
  rw [ends]
  constructor
  · apply Int.ofNat_le.mp
    rw [Int.toNat_of_nonneg (by omega)]
    omega
  · exact Int.toNat_le.mpr within

/-- A shorter delay ends earlier. -/
theorem Representable.shorter (representable : Representable now second)
    (nonneg : PyFloat.zero.le first = true) (le : first.le second = true) :
    Representable now first := by
  obtain ⟨high, same, within⟩ := representable
  subst same
  rcases PyFloat.nonneg_cases nonneg with isInfinite | ⟨low, isFinite, positive⟩
  · rw [isInfinite] at le
    cases le
  · rw [isFinite] at le
    have order : low ≤ high := by simpa [PyFloat.le] using le
    have shorter := microseconds_mono positive order
    exact ⟨low, isFinite, by omega⟩

end Moments

namespace BackoffSettings

variable {backoff : BackoffSettings} {draw : Draw} {raw other value : PyFloat}
  {factor : Rat} {attempt : Nat}

/-- The product with a positive factor is a double from zero on. -/
theorem scaled (nonneg : PyFloat.zero.le value = true) (positive : 0 < factor) :
    PyFloat.zero.le (value.mul (.finite factor)) = true ∧
      (value.mul (.finite factor)).IsDouble := by
  rcases PyFloat.nonneg_cases nonneg with isInfinite | ⟨number, isFinite, numberNonneg⟩
  · have product : value.mul (.finite factor) = .infinite false := by
      simp [isInfinite, PyFloat.mul, positive.ne', positive.le]
    rw [product]
    exact ⟨rfl, trivial⟩
  · have product := mul_nonneg numberNonneg positive.le
    rw [isFinite]
    exact ⟨PyFloat.zero_le_toDouble product, PyFloat.isDouble_toDouble product⟩

theorem raw_nonneg (backoff : BackoffSettings) (positive : 0 < factor) :
    PyFloat.zero.le (backoff.raw (.finite factor)) = true := by
  have base := scaled (PyFloat.le_of_lt backoff.base_pos) positive
  unfold raw
  rcases PyFloat.min_cases backoff.maxSeconds (backoff.baseSeconds.mul (.finite factor))
    with same | same
  · rw [same]
    exact PyFloat.le_of_lt backoff.max_pos
  · rw [same]
    exact base.1

theorem raw_isDouble (backoff : BackoffSettings) (positive : 0 < factor) : (backoff.raw (.finite factor)).IsDouble := by
  have base := scaled (PyFloat.le_of_lt backoff.base_pos) positive
  unfold raw
  rcases PyFloat.min_cases backoff.maxSeconds (backoff.baseSeconds.mul (.finite factor))
    with same | same
  · rw [same]
    exact backoff.max_isDouble
  · rw [same]
    exact base.2

theorem raw_le_max : (backoff.raw other).le backoff.maxSeconds = true :=
  PyFloat.min_le_left (PyFloat.le_self_of_nonneg (PyFloat.le_of_lt backoff.max_pos))

/-- A longer delay is longer with its jitter. -/
theorem jittered_mono (nonneg : PyFloat.zero.le raw = true) (le : raw.le other = true) :
    (backoff.jittered raw).le (backoff.jittered other) = true := by
  unfold jittered
  by_cases none_ : backoff.jitterRatio ≤ 0
  · rw [if_pos none_, if_pos none_]
    exact le
  · have positive := not_le.mp none_
    rw [if_neg none_, if_neg none_]
    exact PyFloat.add_mono le (PyFloat.mul_mono nonneg le positive) nonneg
      (scaled nonneg positive).1

theorem jittered_nonneg (nonneg : PyFloat.zero.le raw = true) :
    PyFloat.zero.le (backoff.jittered raw) = true := by
  have least : (backoff.jittered .zero).le (backoff.jittered raw) = true :=
    jittered_mono rfl nonneg
  have zero : PyFloat.zero.le (backoff.jittered .zero) = true := by
    unfold jittered
    split
    · rfl
    · have product : PyFloat.zero.mul (.finite backoff.jitterRatio) = .zero := by
        simp [PyFloat.mul, PyFloat.zero, PyFloat.toDouble_zero]
      rw [product]
      simp [PyFloat.add, PyFloat.zero, PyFloat.toDouble_zero]
      rfl
  exact PyFloat.le_trans zero least

/-- The ends of the interval about a finite delay. -/
theorem interval_of_finite {number : Rat} (double : (PyFloat.finite number).IsDouble)
    (nonneg : 0 ≤ number) (jitter : 0 < backoff.jitterRatio) :
    ∃ low, (PyFloat.finite number).sub
          ((PyFloat.finite number).mul (.finite backoff.jitterRatio)) = .finite low ∧
        0 ≤ low ∧
      ((PyFloat.finite number).add
            ((PyFloat.finite number).mul (.finite backoff.jitterRatio)) = .infinite false ∨
        ∃ high, (PyFloat.finite number).add
            ((PyFloat.finite number).mul (.finite backoff.jitterRatio)) = .finite high ∧
          low ≤ high) := by
  have product : 0 ≤ number * backoff.jitterRatio := mul_nonneg nonneg jitter.le
  have share : number * backoff.jitterRatio ≤ number :=
    mul_le_of_le_one_right nonneg backoff.jitter_le_one
  obtain ⟨delta, deltaIs, deltaNonneg, deltaLe⟩ :=
    PyFloat.toDouble_finite double product share
  have below : number + -delta ≤ number := by linarith
  obtain ⟨low, lowIs, lowNonneg, lowLe⟩ :=
    PyFloat.toDouble_finite double (by linarith) below
  have mulIs : (PyFloat.finite number).mul (.finite backoff.jitterRatio) = .finite delta :=
    deltaIs
  have subIs : (PyFloat.finite number).sub (.finite delta) = .finite low := lowIs
  have highNonneg : 0 ≤ number + delta := by linarith
  have addIs : (PyFloat.finite number).add (.finite delta) = toDouble (number + delta) := rfl
  have order : (PyFloat.finite low).le (toDouble (number + delta)) = true := by
    rw [← lowIs]
    exact PyFloat.toDouble_le highNonneg (by linarith)
  rw [mulIs]
  refine ⟨low, subIs, lowNonneg, ?_⟩
  rw [addIs]
  rcases PyFloat.nonneg_cases (PyFloat.zero_le_toDouble highNonneg) with
    isInfinite | ⟨high, isFinite, _⟩
  · exact Or.inl isInfinite
  · rw [isFinite] at order ⊢
    exact Or.inr ⟨high, rfl, by simpa [PyFloat.le] using order⟩

/-- A number drawn from the interval is at most its upper end. -/
theorem drawn_le {low : Rat} (lowNonneg : 0 ≤ low)
    (upper : other = .infinite false ∨ ∃ high, other = .finite high ∧ low ≤ high) :
    (PyFloat.zero.max (uniform draw (.finite low) other)).le other = true := by
  rcases upper with isInfinite | ⟨high, isFinite, order⟩
  · rw [isInfinite]
    apply PyFloat.le_infinite
    intro impossible
    have number := PyFloat.zero_le_max (uniform draw (.finite low) (.infinite false))
    rw [impossible] at number
    cases number
  · have inside : low + (high - low) * draw.position ≤ high := by
      have width : (high - low) * draw.position ≤ high - low :=
        mul_le_of_le_one_right (by linarith) draw.le_one
      linarith
    rw [isFinite]
    apply PyFloat.max_le
    · simp [PyFloat.le, PyFloat.zero, lowNonneg.trans order]
    · simpa [uniform, PyFloat.le] using inside

/-- The draw at the upper end of the interval. -/
def topDraw : Draw where
  position := 1
  nonneg := by decide
  le_one := by decide

theorem drawn_top {low : Rat} (lowNonneg : 0 ≤ low)
    (upper : other = .infinite false ∨ ∃ high, other = .finite high ∧ low ≤ high) :
    PyFloat.zero.max (uniform topDraw (.finite low) other) = other := by
  rcases upper with isInfinite | ⟨high, isFinite, order⟩
  · rw [isInfinite]
    rfl
  · have drawn : uniform topDraw (.finite low) (.finite high) = .finite high := by
      simp [uniform, topDraw]
    rw [isFinite, drawn]
    apply PyFloat.zero_max
    simp [PyFloat.le, PyFloat.zero, lowNonneg.trans order]

/-- The interval about an infinite delay begins at `nan`, and so does what is drawn. -/
theorem drawn_infinite (jitter : 0 < backoff.jitterRatio) :
    PyFloat.zero.max
        (uniform draw
          ((PyFloat.infinite false).sub
            ((PyFloat.infinite false).mul (.finite backoff.jitterRatio)))
          ((PyFloat.infinite false).add
            ((PyFloat.infinite false).mul (.finite backoff.jitterRatio)))) =
      .zero := by
  have product :
      (PyFloat.infinite false).mul (.finite backoff.jitterRatio) = .infinite false := by
    simp [PyFloat.mul, jitter.ne', jitter.le]
  rw [product]
  rfl

/-- From the 1025th attempt on the power does not fit into a `float`. -/
theorem exponentialBackoff_overflow (late : Json.doubleExponent < attempt) :
    backoff.exponentialBackoff attempt draw = .error .overflowError := by
  have power : ¬attempt - 1 < Json.doubleExponent := by
    omega
  unfold exponentialBackoff
  rw [PyFloat.ofInt_two_pow, if_neg power]
  rfl

theorem exponentialBackoff_eq (early : attempt ≤ Json.doubleExponent) :
    backoff.exponentialBackoff attempt draw =
      .ok
        (if backoff.jitterRatio ≤ 0 then backoff.raw (.finite (2 ^ (attempt - 1)))
        else
          PyFloat.zero.max
            (uniform draw
              ((backoff.raw (.finite (2 ^ (attempt - 1)))).sub
                ((backoff.raw (.finite (2 ^ (attempt - 1)))).mul
                  (.finite backoff.jitterRatio)))
              ((backoff.raw (.finite (2 ^ (attempt - 1)))).add
                ((backoff.raw (.finite (2 ^ (attempt - 1)))).mul
                  (.finite backoff.jitterRatio))))) := by
  have power : attempt - 1 < Json.doubleExponent := by
    unfold Json.doubleExponent at early ⊢
    omega
  unfold exponentialBackoff
  rw [PyFloat.ofInt_two_pow, if_pos power, Except.ok_bind]
  split
  · rfl
  · rfl

/-- Up to the 1024th attempt a backoff is computed; it is not negative and at most the
longest one. -/
theorem exponentialBackoff_spec (backoff : BackoffSettings) (draw : Draw)
    (early : attempt ≤ Json.doubleExponent) :
    ∃ value, backoff.exponentialBackoff attempt draw = .ok value ∧
      PyFloat.zero.le value = true ∧ value.le (backoff.longest attempt) = true := by
  have positive : (0 : Rat) < 2 ^ (attempt - 1) := by positivity
  have nonneg := raw_nonneg backoff positive
  have double := raw_isDouble backoff positive
  rw [exponentialBackoff_eq early]
  refine ⟨_, rfl, ?_⟩
  unfold longest
  by_cases none_ : backoff.jitterRatio ≤ 0
  · simp only [none_, if_true, decide_true, jittered]
    exact ⟨nonneg, PyFloat.le_self_of_nonneg nonneg⟩
  · have jitter := not_le.mp none_
    simp only [none_, if_false, decide_false]
    rcases PyFloat.nonneg_cases nonneg with isInfinite | ⟨number, isFinite, numberNonneg⟩
    · rw [isInfinite, drawn_infinite jitter]
      exact ⟨rfl, rfl⟩
    · rw [isFinite] at double ⊢
      obtain ⟨low, lower, lowNonneg, upper⟩ :=
        interval_of_finite double numberNonneg jitter
      refine ⟨PyFloat.zero_le_max _, ?_⟩
      rw [lower]
      dsimp only [jittered]
      rw [if_neg none_]
      exact drawn_le lowNonneg upper

/-- The longest backoff is drawn. -/
theorem exponentialBackoff_top (early : attempt ≤ Json.doubleExponent) :
    backoff.exponentialBackoff attempt topDraw = .ok (backoff.longest attempt) := by
  have positive : (0 : Rat) < 2 ^ (attempt - 1) := by positivity
  have nonneg := raw_nonneg backoff positive
  have double := raw_isDouble backoff positive
  rw [exponentialBackoff_eq early]
  unfold longest
  by_cases none_ : backoff.jitterRatio ≤ 0
  · simp only [none_, if_true, decide_true, jittered]
  · have jitter := not_le.mp none_
    simp only [none_, if_false, decide_false]
    rcases PyFloat.nonneg_cases nonneg with isInfinite | ⟨number, isFinite, numberNonneg⟩
    · rw [isInfinite, drawn_infinite jitter]
    · rw [isFinite] at double ⊢
      obtain ⟨low, lower, lowNonneg, upper⟩ :=
        interval_of_finite double numberNonneg jitter
      rw [lower, drawn_top lowNonneg upper]
      dsimp only [jittered]
      rw [if_neg none_]

theorem longest_nonneg : PyFloat.zero.le (backoff.longest attempt) = true := by
  have positive : (0 : Rat) < 2 ^ (attempt - 1) := by positivity
  have nonneg := raw_nonneg backoff positive
  unfold longest
  dsimp only
  split
  · rfl
  · exact jittered_nonneg nonneg

theorem longest_le_bound : (backoff.longest attempt).le backoff.bound = true := by
  have positive : (0 : Rat) < 2 ^ (attempt - 1) := by positivity
  have nonneg := raw_nonneg backoff positive
  unfold longest bound
  dsimp only
  split
  · exact jittered_nonneg (PyFloat.le_of_lt backoff.max_pos)
  · exact jittered_mono nonneg raw_le_max

/-- A backoff is from zero to `max_seconds` times `1 + jitter_ratio`. -/
theorem exponentialBackoff_range
    (computed : backoff.exponentialBackoff attempt draw = .ok value) :
    PyFloat.zero.le value = true ∧ value.le backoff.bound = true := by
  by_cases early : attempt ≤ Json.doubleExponent
  · obtain ⟨other, same, nonneg, atMost⟩ := exponentialBackoff_spec backoff draw early
    rw [computed] at same
    cases same
    exact ⟨nonneg, PyFloat.le_trans atMost longest_le_bound⟩
  · rw [exponentialBackoff_overflow (by omega)] at computed
    cases computed

end BackoffSettings

end PeReview
