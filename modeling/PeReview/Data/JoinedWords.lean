import PeReview.Data.Words

/-!
# Texts up to their white space

`" ".join(text.split())`: what stands before a text never touches the words the text ends with.
-/

namespace PeReview

/-- `" ".join(words)`. -/
def joined (parts : List (List Char)) : List Char :=
  List.intercalate [' '] parts

/-- `" ".join(text.split())`. -/
def joinWords (text : List Char) : List Char :=
  joined (words text)

section Suffixes

variable {part before text rest : List Char} {parts : List (List Char)} {char : Char}

theorem joined_cons (filled : parts ≠ []) :
    joined (part :: parts) = part ++ ' ' :: joined parts := by
  cases parts with
  | nil => exact absurd rfl filled
  | cons other parts => simp [joined, List.intercalate, List.intersperse]

theorem joined_singleton : joined [part] = part := by
  simp [joined, List.intercalate, List.intersperse]

theorem joined_cons_append :
    joined ((before ++ part) :: parts) = before ++ joined (part :: parts) := by
  cases parts with
  | nil => rw [joined_singleton, joined_singleton]
  | cons other parts =>
      have filled : other :: parts ≠ [] := by simp
      rw [joined_cons filled, joined_cons filled, List.append_assoc]

theorem joined_suffix_cons : joined parts <:+ joined (part :: parts) := by
  cases parts with
  | nil => exact List.nil_suffix
  | cons other parts =>
      have filled : other :: parts ≠ [] := by simp
      rw [joined_cons filled]
      exact ⟨part ++ [' '], by simp⟩

/-- A longer word in hand only adds to the front. -/
theorem joined_wordsFrom_append (word older text : List Char) :
    joined (wordsFrom word text) <:+ joined (wordsFrom (word ++ older) text) := by
  induction text generalizing word with
  | nil =>
      cases word with
      | nil => exact List.nil_suffix
      | cons char word =>
          rw [List.cons_append, wordsFrom, wordsFrom, joined_singleton, joined_singleton,
            ← List.cons_append, List.reverse_append]
          exact List.suffix_append _ _
  | cons char rest inductionHypothesis =>
      by_cases space : isPythonSpace char = true
      · rw [wordsFrom, wordsFrom, if_pos space, if_pos space]
        cases word with
        | nil =>
            rw [if_pos rfl, List.nil_append]
            split
            · exact List.suffix_refl _
            · exact joined_suffix_cons
        | cons first word =>
            have filled : first :: word ++ older ≠ [] := by simp
            rw [if_neg filled, if_neg (List.cons_ne_nil first word), List.reverse_append,
              joined_cons_append]
            exact List.suffix_append _ _
      · rw [wordsFrom, wordsFrom, if_neg space, if_neg space]
        exact inductionHypothesis (char :: word)

theorem joined_wordsFrom_behind (word before text : List Char) :
    joinWords text <:+ joined (wordsFrom word (before ++ text)) := by
  induction before generalizing word with
  | nil => exact joined_wordsFrom_append [] word text
  | cons char before inductionHypothesis =>
      rw [List.cons_append, wordsFrom]
      by_cases space : isPythonSpace char = true
      · rw [if_pos space]
        split
        · exact inductionHypothesis []
        · exact (inductionHypothesis []).trans joined_suffix_cons
      · rw [if_neg space]
        exact inductionHypothesis (char :: word)

/-- What stands before a text never touches the words it ends with. -/
theorem joinWords_suffix (before text : List Char) :
    joinWords text <:+ joinWords (before ++ text) :=
  joined_wordsFrom_behind [] before text

theorem wordsFrom_whole {word : List Char} (whole : ∀ char ∈ text, isPythonSpace char = false)
    (filled : word ≠ [] ∨ text ≠ []) : wordsFrom word text = [word.reverse ++ text] := by
  induction text generalizing word with
  | nil =>
      cases word with
      | nil => simp at filled
      | cons char word => rw [wordsFrom, List.append_nil]
  | cons char rest inductionHypothesis =>
      have plain := whole char List.mem_cons_self
      have later : wordsFrom (char :: word) rest = [(char :: word).reverse ++ rest] :=
        inductionHypothesis (fun other member => whole other (List.mem_cons_of_mem _ member))
          (Or.inl (List.cons_ne_nil char word))
      rw [wordsFrom, if_neg (by rw [plain]; decide), later, List.reverse_cons,
        List.append_assoc]
      rfl

/-- A text that ends with a word of its own ends with that word when it is joined. -/
theorem joinWords_last (before : List Char) {last : Char} {word : List Char}
    (plain : isPythonSpace last = false) (whole : ∀ char ∈ word, isPythonSpace char = false)
    (filled : word ≠ []) :
    last :: ' ' :: word <:+ joinWords (before ++ last :: '\n' :: '\n' :: word) := by
  have line : isPythonSpace '\n' = true := by decide
  have ends : joinWords (last :: '\n' :: '\n' :: word) = last :: ' ' :: word := by
    unfold joinWords words
    rw [wordsFrom, if_neg (by rw [plain]; decide), wordsFrom, if_pos line,
      if_neg (List.cons_ne_nil last []), wordsFrom, if_pos line, if_pos rfl,
      wordsFrom_whole whole (Or.inr filled), joined_cons (List.cons_ne_nil _ _),
      joined_singleton]
    rfl
  rw [← ends]
  exact joinWords_suffix before _

/-- Two texts that end alike end with the same word. -/
theorem last_word_unique {first second : Char} {word other whole : List Char}
    (plain : isPythonSpace first = false) (different : isPythonSpace second = false)
    (left : first :: ' ' :: word <:+ whole) (right : second :: ' ' :: other <:+ whole)
    (noSpace : ' ' ∉ word) (noOther : ' ' ∉ other) : word = other := by
  have among : ∀ {front back : Char} {inner outer : List Char}, isPythonSpace front = false →
      ' ' ∉ outer → front :: ' ' :: inner <:+ back :: ' ' :: outer → inner = outer := by
    intro front back inner outer solid free within
    rcases List.suffix_cons_iff.mp within with same | shorter
    · cases same
      rfl
    · rcases List.suffix_cons_iff.mp shorter with same | inside
      · obtain ⟨rfl, _⟩ := List.cons.inj same
        exact absurd solid (by decide)
      · exact absurd (inside.subset (List.mem_cons_of_mem _ List.mem_cons_self)) free
  rcases List.suffix_or_suffix_of_suffix left right with within | within
  · exact among plain noOther within
  · exact (among different noSpace within).symm

end Suffixes

end PeReview
