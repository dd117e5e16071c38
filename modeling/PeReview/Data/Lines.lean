import Mathlib.Data.List.Basic

/-!
# Lines of a text

`str.splitlines` breaks a text at more characters than the line feed.
-/

namespace PeReview

/-- The characters `str.splitlines` breaks at. -/
def isLineBreak (char : Char) : Bool :=
  let code := char.toNat
  (10 ≤ code && code ≤ 13) || (28 ≤ code && code ≤ 30) ||
    [133, 8232, 8233].contains code

/-- `str.splitlines`, with the current line reversed in `line`. -/
def splitlinesFrom : List Char → List Char → List (List Char)
  | [], [] => []
  | line, [] => [line.reverse]
  | line, '\r' :: '\n' :: rest => line.reverse :: splitlinesFrom [] rest
  | line, char :: rest =>
      if isLineBreak char then line.reverse :: splitlinesFrom [] rest
      else splitlinesFrom (char :: line) rest

/-- `str.splitlines`. -/
def splitlines (text : String) : List String :=
  (splitlinesFrom [] text.toList).map String.ofList

/-- A text without the characters `str.splitlines` breaks at. -/
def Unbroken (text : List Char) : Prop :=
  ∀ char ∈ text, isLineBreak char = false

/-- Lines, each ended by a line feed. -/
def unlines (lines : List (List Char)) : List Char :=
  lines.flatMap fun line => line ++ ['\n']

theorem unbroken_nil : Unbroken [] := by
  intro char member
  cases member

theorem Unbroken.append {first second : List Char} (left : Unbroken first)
    (right : Unbroken second) : Unbroken (first ++ second) := by
  intro char member
  rcases List.mem_append.mp member with earlier | later
  · exact left char earlier
  · exact right char later

theorem Unbroken.cons {head : Char} {rest : List Char}
    (first : isLineBreak head = false) (others : Unbroken rest) :
    Unbroken (head :: rest) := by
  intro char member
  rcases List.mem_cons.mp member with rfl | later
  · exact first
  · exact others char later

theorem Unbroken.of_subset {part text : List Char} (unbroken : Unbroken text)
    (within : part ⊆ text) : Unbroken part :=
  fun char member => unbroken char (within member)

theorem splitlinesFrom_cons {line rest : List Char} {char : Char}
    (plain : isLineBreak char = false) :
    splitlinesFrom line (char :: rest) = splitlinesFrom (char :: line) rest := by
  rw [splitlinesFrom]
  · simp [plain]
  · rintro others rfl _
    simp [isLineBreak] at plain

/-- An unbroken line is split off at its line feed. -/
theorem splitlinesFrom_line {text : List Char} (unbroken : Unbroken text)
    (line rest : List Char) :
    splitlinesFrom line (text ++ '\n' :: rest) =
      (line.reverse ++ text) :: splitlinesFrom [] rest := by
  induction text generalizing line with
  | nil =>
      have breaks : isLineBreak '\n' = true := by decide
      rw [List.nil_append, List.append_nil, splitlinesFrom]
      · simp [breaks]
      · intro others same
        cases same
  | cons char text inductionHypothesis =>
      have others : Unbroken text := fun other member =>
        unbroken other (List.mem_cons_of_mem char member)
      rw [List.cons_append, splitlinesFrom_cons (unbroken char List.mem_cons_self),
        inductionHypothesis others]
      simp

theorem splitlinesFrom_append {text : List Char} (unbroken : Unbroken text)
    (line rest : List Char) :
    splitlinesFrom line (text ++ rest) = splitlinesFrom (text.reverse ++ line) rest := by
  induction text generalizing line with
  | nil => rfl
  | cons char text inductionHypothesis =>
      have others : Unbroken text := fun other member =>
        unbroken other (List.mem_cons_of_mem char member)
      rw [List.cons_append, splitlinesFrom_cons (unbroken char List.mem_cons_self),
        inductionHypothesis others]
      simp

/-- What is read before a text stands before its first line. -/
theorem splitlinesFrom_first {text : List Char} (nonempty : text ≠ []) :
    ∃ first others, ∀ line,
      splitlinesFrom line text = (line.reverse ++ first) :: others := by
  induction text with
  | nil => exact absurd rfl nonempty
  | cons char text inductionHypothesis =>
      cases breaks : isLineBreak char with
      | true =>
          by_cases pair : char = '\r' ∧ text.head? = some '\n'
          · obtain ⟨rfl, newline⟩ := pair
            obtain ⟨rest, rfl⟩ := List.head?_eq_some_iff.mp newline
            refine ⟨[], splitlinesFrom [] rest, fun line => ?_⟩
            rw [splitlinesFrom, List.append_nil]
          · refine ⟨[], splitlinesFrom [] text, fun line => ?_⟩
            rw [splitlinesFrom]
            · rw [if_pos breaks, List.append_nil]
            · rintro rest rfl rfl
              exact pair ⟨rfl, rfl⟩
      | false =>
          cases text with
          | nil =>
              refine ⟨[char], [], fun line => ?_⟩
              rw [splitlinesFrom_cons breaks, splitlinesFrom]
              · simp
              · simp
          | cons next rest =>
              obtain ⟨first, others, split⟩ :=
                inductionHypothesis (List.cons_ne_nil next rest)
              refine ⟨char :: first, others, fun line => ?_⟩
              rw [splitlinesFrom_cons breaks, split]
              simp

/-- A text without a line feed is split off, with the line feed after it. -/
theorem splitlinesFrom_ended {text : List Char} (single : '\n' ∉ text)
    (line rest : List Char) :
    splitlinesFrom line (text ++ '\n' :: rest) =
      splitlinesFrom line (text ++ ['\n']) ++ splitlinesFrom [] rest := by
  induction text generalizing line with
  | nil =>
      rw [splitlinesFrom_line unbroken_nil line rest,
        splitlinesFrom_line unbroken_nil line []]
      rfl
  | cons char text inductionHypothesis =>
      have others : '\n' ∉ text := fun member => single (List.mem_cons_of_mem char member)
      rw [List.cons_append, List.cons_append]
      cases breaks : isLineBreak char with
      | false =>
          rw [splitlinesFrom_cons breaks, splitlinesFrom_cons breaks]
          exact inductionHypothesis others _
      | true =>
          by_cases pair : char = '\r' ∧ text = []
          · obtain ⟨rfl, rfl⟩ := pair
            simp [splitlinesFrom]
          · have apart : ∀ tail others, char = '\r' → text ++ '\n' :: tail = '\n' :: others →
                False := by
              rintro tail others rfl same
              cases text with
              | nil => exact pair ⟨rfl, rfl⟩
              | cons next text =>
                  have first : next = '\n' := (List.cons.inj same).1
                  exact single (by rw [first]; simp)
            rw [splitlinesFrom, if_pos breaks, splitlinesFrom, if_pos breaks,
              inductionHypothesis others, List.cons_append]
            · exact apart []
            · exact apart rest

/-- Lines without line feeds are split one by one. -/
theorem splitlinesFrom_unlines {lines : List (List Char)}
    (single : ∀ line ∈ lines, '\n' ∉ line) :
    splitlinesFrom [] (unlines lines) =
      lines.flatMap fun line => splitlinesFrom [] (line ++ ['\n']) := by
  induction lines with
  | nil => rfl
  | cons line lines inductionHypothesis =>
      have others := inductionHypothesis fun other member =>
        single other (List.mem_cons_of_mem line member)
      rw [unlines] at others
      rw [unlines, List.flatMap_cons, List.append_assoc, List.singleton_append,
        splitlinesFrom_ended (single line List.mem_cons_self), others, List.flatMap_cons]

/-- Unbroken lines stay as they are. -/
theorem flatMap_splitlinesFrom {lines : List (List Char)}
    (unbroken : ∀ line ∈ lines, Unbroken line) :
    (lines.flatMap fun line => splitlinesFrom [] (line ++ ['\n'])) = lines := by
  induction lines with
  | nil => rfl
  | cons line lines inductionHypothesis =>
      have others := inductionHypothesis fun other member =>
        unbroken other (List.mem_cons_of_mem line member)
      rw [List.flatMap_cons, splitlinesFrom_line (unbroken line List.mem_cons_self), others]
      rfl

theorem Unbroken.not_mem_newline {text : List Char} (unbroken : Unbroken text) :
    '\n' ∉ text := by
  intro member
  exact absurd (unbroken _ member) (by decide)

/-- What `str.splitlines` answers is unbroken. -/
theorem unbroken_of_mem_splitlinesFrom {line text : List Char}
    (sofar : Unbroken line) :
    ∀ piece ∈ splitlinesFrom line text, Unbroken piece := by
  have whole : ∀ line : List Char, Unbroken line → Unbroken line.reverse :=
    fun line unbroken => unbroken.of_subset (List.reverse_subset.mpr (List.Subset.refl _))
  induction line, text using splitlinesFrom.induct with
  | case1 =>
      intro piece member
      cases member
  | case2 line nonempty =>
      intro piece member
      rw [splitlinesFrom] at member
      · obtain rfl := List.mem_singleton.mp member
        exact whole line sofar
      · exact nonempty
  | case3 line rest inductionHypothesis =>
      intro piece member
      rw [splitlinesFrom] at member
      rcases List.mem_cons.mp member with rfl | later
      · exact whole line sofar
      · exact inductionHypothesis nofun piece later
  | case4 line char rest other breaks inductionHypothesis =>
      intro piece member
      rw [splitlinesFrom] at member
      · rw [if_pos breaks] at member
        rcases List.mem_cons.mp member with rfl | later
        · exact whole line sofar
        · exact inductionHypothesis nofun piece later
      · exact other
  | case5 line char rest other plain inductionHypothesis =>
      intro piece member
      rw [splitlinesFrom_cons (by simpa using plain)] at member
      exact inductionHypothesis (sofar.cons (by simpa using plain)) piece member

end PeReview
