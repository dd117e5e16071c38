import PeReview.Data.Text

/-!
# Words of a text

`str.split` and `str.lstrip`, and what they have in common.
-/

namespace PeReview

/-- `str.lstrip`, and `\\s*`. -/
def lstrip (text : List Char) : List Char :=
  text.dropWhile isPythonSpace

/-- `str.split`, with the current word reversed in `word`. -/
def wordsFrom : List Char → List Char → List (List Char)
  | [], [] => []
  | char :: word, [] => [(char :: word).reverse]
  | word, char :: rest =>
      if isPythonSpace char then
        if word = [] then wordsFrom [] rest else word.reverse :: wordsFrom [] rest
      else wordsFrom (char :: word) rest

/-- `str.split`. -/
def words (text : List Char) : List (List Char) :=
  wordsFrom [] text

section Words

variable {char : Char} {text rest : List Char}

@[simp]
theorem lstrip_nil : lstrip [] = [] :=
  rfl

theorem lstrip_space (space : isPythonSpace char = true) :
    lstrip (char :: rest) = lstrip rest :=
  List.dropWhile_cons_of_pos space

theorem lstrip_cons (plain : isPythonSpace char = false) :
    lstrip (char :: rest) = char :: rest := by
  apply List.dropWhile_cons_of_neg
  rw [plain]
  decide

/-- Stripping twice is stripping once. -/
theorem lstrip_lstrip (text : List Char) : lstrip (lstrip text) = lstrip text := by
  induction text with
  | nil => rfl
  | cons char rest inductionHypothesis =>
      by_cases space : isPythonSpace char = true
      · rw [lstrip_space space, inductionHypothesis]
      · have plain := Bool.eq_false_iff.mpr space
        rw [lstrip_cons plain, lstrip_cons plain]

theorem words_space (space : isPythonSpace char = true) :
    words (char :: rest) = words rest := by
  unfold words
  rw [wordsFrom, if_pos space, if_pos rfl]

/-- The words do not depend on the white space before them. -/
theorem words_lstrip (text : List Char) : words (lstrip text) = words text := by
  induction text with
  | nil => rfl
  | cons char rest inductionHypothesis =>
      by_cases space : isPythonSpace char = true
      · rw [lstrip_space space, inductionHypothesis, words_space space]
      · rw [lstrip_cons (Bool.eq_false_iff.mpr space)]

/-- A word in hand is the beginning of the first word. -/
theorem wordsFrom_begins (word : List Char) (last : Char) (text : List Char) :
    ∃ others more, wordsFrom (word ++ [last]) text = (last :: others) :: more := by
  induction text generalizing word with
  | nil =>
      refine ⟨word.reverse, [], ?_⟩
      cases word with
      | nil => rfl
      | cons char word =>
          simp [wordsFrom]
  | cons char rest inductionHypothesis =>
      have filled : word ++ [last] ≠ [] := by
        simp
      by_cases space : isPythonSpace char = true
      · refine ⟨word.reverse, wordsFrom [] rest, ?_⟩
        rw [wordsFrom, if_pos space, if_neg filled]
        simp
      · rw [wordsFrom, if_neg space]
        exact inductionHypothesis (char :: word)

/-- The first word begins where the white space ends. -/
theorem head_words (text : List Char) :
    (words text).head?.bind List.head? = (lstrip text).head? := by
  induction text with
  | nil => rfl
  | cons char rest inductionHypothesis =>
      by_cases space : isPythonSpace char = true
      · rw [words_space space, lstrip_space space, inductionHypothesis]
      · obtain ⟨others, more, begins⟩ := wordsFrom_begins [] char rest
        rw [lstrip_cons (Bool.eq_false_iff.mpr space)]
        unfold words
        rw [wordsFrom, if_neg space]
        rw [List.nil_append] at begins
        rw [begins]
        rfl

/-- The words hold the characters that are no white space, in their order. -/
theorem flatten_wordsFrom (word text : List Char) :
    (wordsFrom word text).flatten =
      word.reverse ++ text.filter fun char => !isPythonSpace char := by
  induction text generalizing word with
  | nil => cases word <;> simp [wordsFrom]
  | cons char rest inductionHypothesis =>
      by_cases space : isPythonSpace char = true
      · by_cases empty : word = []
        · subst empty
          rw [wordsFrom, if_pos space, if_pos rfl, inductionHypothesis]
          simp [space]
        · rw [wordsFrom, if_pos space, if_neg empty, List.flatten_cons, inductionHypothesis]
          simp [space]
      · rw [wordsFrom, if_neg space, inductionHypothesis]
        simp [space]

/-- Texts with the same words hold the same characters, but for white space. -/
theorem mem_of_words {other : List Char} (same : words text = words other)
    (plain : isPythonSpace char = false) (member : char ∈ text) : char ∈ other := by
  have filtered : text.filter (fun char => !isPythonSpace char) =
      other.filter fun char => !isPythonSpace char := by
    rw [← List.nil_append (text.filter _), ← List.nil_append (other.filter _),
      ← List.reverse_nil, ← flatten_wordsFrom, ← flatten_wordsFrom]
    exact congrArg List.flatten same
  have solid : (!isPythonSpace char) = true := by
    rw [plain, Bool.not_false]
  have kept : char ∈ text.filter fun char => !isPythonSpace char :=
    List.mem_filter.mpr ⟨member, solid⟩
  rw [filtered] at kept
  exact (List.mem_filter.mp kept).1

end Words

end PeReview
