import Mathlib.Algebra.Order.Ring.Nat
import Mathlib.Data.List.Basic
import PeReview.Data.Text

/-!
# Decimal numbers in a text

What `\d+` matches and `int` reads: the decimal digits of every script.
-/

namespace PeReview

/-- The zeros of the decimal digits other than the ASCII ones; the other nine
follow each. -/
def foreignZeros : List Nat :=
  [1632, 1776, 1984, 2406, 2534, 2662, 2790, 2918, 3046, 3174, 3302, 3430,
    3558, 3664, 3792, 3872, 4160, 4240, 6112, 6160, 6470, 6608, 6784, 6800, 6992,
    7088, 7232, 7248, 42528, 43216, 43264, 43472, 43504, 43600, 44016, 65296,
    66720, 68912, 69734, 69872, 69942, 70096, 70384, 70736, 70864, 71248, 71360,
    71472, 71904, 72016, 72784, 73040, 73120, 92768, 92864, 93008, 120782, 120792,
    120802, 120812, 120822, 123200, 123632, 125264, 130032]

def decimalDigit (char : Char) : Option Nat :=
  ((48 :: foreignZeros).find? fun first =>
    first ≤ char.toNat && char.toNat < first + 10).map
      fun first => char.toNat - first

def readDigits : List Char → Nat → Nat × List Char
  | [], value => (value, [])
  | char :: rest, value =>
      match decimalDigit char with
      | none => (value, char :: rest)
      | some digit => readDigits rest (10 * value + digit)

def readNumber : List Char → Option (Nat × List Char)
  | [] => none
  | char :: rest =>
      (decimalDigit char).map fun digit => readDigits rest digit

theorem decimalDigit_of_isDigit {char : Char} (digit : char.isDigit = true) :
    decimalDigit char = some (char.toNat - '0'.toNat) := by
  have bounds : 48 ≤ char.toNat ∧ char.toNat ≤ 57 := by
    simpa [Char.isDigit, UInt32.le_iff_toNat_le] using digit
  have within : (decide (48 ≤ char.toNat) && decide (char.toNat < 48 + 10)) = true := by
    simp only [Bool.and_eq_true, decide_eq_true_eq]
    omega
  simp only [decimalDigit, List.find?_cons, within, Option.map_some]
  rfl

theorem readDigits_append {digits rest : List Char}
    (allDigits : ∀ char ∈ digits, char.isDigit = true)
    (stops : ∀ char ∈ rest.head?, decimalDigit char = none) (value : Nat) :
    readDigits (digits ++ rest) value =
      (Nat.ofDigitChars 10 digits value, rest) := by
  induction digits generalizing value with
  | nil =>
      cases rest with
      | nil => simp [readDigits]
      | cons char rest => simp [readDigits, stops char rfl]
  | cons char digits inductionHypothesis =>
      have first := decimalDigit_of_isDigit (allDigits char List.mem_cons_self)
      have others := inductionHypothesis
        (fun other member => allDigits other (List.mem_cons_of_mem char member))
        (10 * value + (char.toNat - '0'.toNat))
      simp only [List.cons_append, readDigits, first, Nat.ofDigitChars_cons]
      exact others

/-- A number is read as it was written. -/
theorem readNumber_toDigits (number : Nat) {rest : List Char}
    (stops : ∀ char ∈ rest.head?, decimalDigit char = none) :
    readNumber (Nat.toDigits 10 number ++ rest) = some (number, rest) := by
  have allDigits : ∀ char ∈ Nat.toDigits 10 number, char.isDigit = true :=
    fun char member => Nat.isDigit_of_mem_toDigits (by decide) (by decide) member
  have value := Nat.ofDigitChars_ten_toDigits (n := number)
  cases written : Nat.toDigits 10 number with
  | nil => exact absurd written Nat.toDigits_ne_nil
  | cons char digits =>
      rw [written] at allDigits value
      have first := decimalDigit_of_isDigit (allDigits char List.mem_cons_self)
      have read_ := readDigits_append
        (fun other member => allDigits other (List.mem_cons_of_mem char member)) stops
        (char.toNat - '0'.toNat)
      rw [Nat.ofDigitChars_cons, Nat.mul_zero, Nat.zero_add] at value
      simp only [List.cons_append, readNumber, first, Option.map_some, read_, value]

section Integers

/-- Read digits, single underscores between two of them skipped. -/
def takeDigits (afterDigit : Bool) : List Char → List Nat × List Char
  | [] => ([], [])
  | char :: rest =>
      match decimalDigit char with
      | some digit =>
          let (digits, remaining) := takeDigits true rest
          (digit :: digits, remaining)
      | none =>
          if afterDigit && char = '_' && (rest.head?.any fun next => (decimalDigit next).isSome)
          then takeDigits false rest
          else ([], char :: rest)

def takeSign : List Char → Int × List Char
  | '-' :: rest => (-1, rest)
  | '+' :: rest => (1, rest)
  | chars => (1, chars)

def ofDigits (digits : List Nat) : Nat :=
  digits.foldl (fun value digit => 10 * value + digit) 0

/-- The digits Python converts between a text and an `int`. -/
def intTextDigits : Nat := 4300

/-- The least number with more digits. -/
def intTextBound : Nat := 10 ^ intTextDigits

/-- `int` of a text, with the limit on the digits it converts. -/
def intOfText (text : String) : Option Int :=
  let (sign, chars) := takeSign (pyStrip text).toList
  let (digits, remaining) := takeDigits false chars
  if digits.isEmpty || !remaining.isEmpty || 4300 < digits.length then none
  else some (sign * ofDigits digits)

theorem decimalDigit_lt_ten {char : Char} {digit : Nat}
    (read_ : decimalDigit char = some digit) : digit < 10 := by
  obtain ⟨first, found, same⟩ := Option.map_eq_some_iff.mp read_
  have within := List.find?_some found
  simp only [Bool.and_eq_true, decide_eq_true_eq] at within
  omega

theorem takeDigits_lt_ten {afterDigit : Bool} {chars : List Char} :
    ∀ digit ∈ (takeDigits afterDigit chars).1, digit < 10 := by
  induction chars generalizing afterDigit with
  | nil =>
      intro digit member
      cases member
  | cons char rest inductionHypothesis =>
      cases read_ : decimalDigit char with
      | some digit =>
          simp only [takeDigits, read_, List.forall_mem_cons]
          exact ⟨decimalDigit_lt_ten read_, inductionHypothesis⟩
      | none =>
          simp only [takeDigits, read_]
          split
          · exact inductionHypothesis
          · intro digit member
            cases member

theorem foldl_digits_lt {digits : List Nat} (small : ∀ digit ∈ digits, digit < 10)
    (start : Nat) :
    digits.foldl (fun value digit => 10 * value + digit) start <
      (start + 1) * 10 ^ digits.length := by
  induction digits generalizing start with
  | nil =>
      simp
  | cons digit rest inductionHypothesis =>
      rw [List.forall_mem_cons] at small
      have later := inductionHypothesis small.2 (10 * start + digit)
      have grown : (10 * start + digit + 1) * 10 ^ rest.length ≤
          10 * (start + 1) * 10 ^ rest.length := by
        apply Nat.mul_le_mul_right
        omega
      rw [List.foldl_cons, List.length_cons]
      calc
        _ < (10 * start + digit + 1) * 10 ^ rest.length := later
        _ ≤ 10 * (start + 1) * 10 ^ rest.length := grown
        _ = (start + 1) * 10 ^ (rest.length + 1) := by
          rw [Nat.pow_succ, Nat.mul_comm 10, Nat.mul_assoc, Nat.mul_comm 10]

theorem natAbs_takeSign (chars : List Char) : (takeSign chars).1.natAbs = 1 := by
  unfold takeSign
  split <;> rfl

/-- An `int` read from a text has at most as many digits as Python converts. -/
theorem natAbs_intOfText_lt {text : String} {value : Int}
    (read_ : intOfText text = some value) : value.natAbs < intTextBound := by
  let chars := takeSign (pyStrip text).toList
  let digits := (takeDigits false chars.2).1
  have small : ∀ digit ∈ digits, digit < 10 := takeDigits_lt_ten
  have within : ofDigits digits < (0 + 1) * 10 ^ digits.length :=
    foldl_digits_lt small 0
  unfold intOfText at read_
  dsimp only at read_
  split at read_
  · cases read_
  · rename_i accepted
    simp only [Bool.or_eq_true, decide_eq_true_eq, not_or, Nat.not_lt] at accepted
    have bounded : 10 ^ digits.length ≤ intTextBound :=
      Nat.pow_le_pow_right (by decide) accepted.2
    have unit : chars.1.natAbs = 1 := natAbs_takeSign (pyStrip text).toList
    have same : chars.1 * (ofDigits digits : Int) = value := Option.some.inj read_
    rw [← same, Int.natAbs_mul, unit, Nat.one_mul, Int.natAbs_natCast]
    omega

end Integers

end PeReview
