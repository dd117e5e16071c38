import PeReview.Data.Except
import PeReview.Repos.ChangedLines
import PeReview.Repos.UnifiedDiff

/-!
# How the lines of a diff are read

What `_parse_changed_lines` makes of each kind of line in a diff.
-/

namespace PeReview

open PeReview.Data

section Literals

/-- What does not start with two marks starts with nothing that goes on from
them. -/
theorem not_isPrefixOf_of_marks {mark : Char} {text : List Char}
    (plain : ([mark, mark].isPrefixOf text) = false) (others : List Char) :
    (mark :: mark :: others).isPrefixOf text = false ∧
      text ≠ mark :: mark :: others := by
  have longer : ¬mark :: mark :: others <+: text := by
    intro begins
    have marks : [mark, mark] <+: text :=
      (List.prefix_append [mark, mark] others).trans begins
    rw [List.isPrefixOf_iff_prefix.mpr marks] at plain
    cases plain
  constructor
  · cases known : (mark :: mark :: others).isPrefixOf text with
    | false => rfl
    | true => exact absurd (List.isPrefixOf_iff_prefix.mp known) longer
  · rintro rfl
    exact longer (List.prefix_refl _)

theorem afterLiteral_append (literal : String) (text : List Char) :
    afterLiteral literal (literal.toList ++ text) = some text := by
  have begins : literal.toList.isPrefixOf (literal.toList ++ text) = true :=
    List.isPrefixOf_iff_prefix.mpr (List.prefix_append _ _)
  have length : literal.length = literal.toList.length := String.length_toList.symm
  rw [afterLiteral, if_pos begins, length, List.drop_left]

end Literals

/-- A line that is read as a changed line. -/
def emits (raw : List Char) : Bool :=
  (startsWith "+" raw && !startsWith "+++" raw) ||
    (startsWith "-" raw && !startsWith "---" raw)

/-- The path a line names for a side; absent for `/dev/null`. -/
def namedPath (side : DiffSide) (raw : List Char) : Option (Option (List Char)) :=
  match side with
  | .parent =>
      if startsWith "--- a/" raw then some (some (raw.drop 6))
      else if raw = "--- /dev/null".toList then some none
      else none
  | .revision =>
      if startsWith "+++ b/" raw then some (some (raw.drop 6))
      else if raw = "+++ /dev/null".toList then some none
      else none

def namesPath (raw : List Char) : Bool :=
  (namedPath .parent raw).isSome || (namedPath .revision raw).isSome

/-- The number of the next line on a side after a line that is not read as a changed
line. -/
def nextNumber (side : DiffSide) (number : Nat) (raw : List Char) : Nat :=
  match matchHunk raw with
  | some (oldLine, newLine) =>
      match side with
      | .parent => oldLine
      | .revision => newLine
  | none => if startsWith " " raw then number + 1 else number

/-- The path of a side after some lines: the last one they name. -/
def pathAfter (side : DiffSide) (path : Option (List Char)) (lines : List (List Char)) :
    Option (List Char) :=
  lines.foldl (fun path raw => (namedPath side raw).getD path) path

/-- The number of the next line on a side after some lines. -/
def numberAfter (side : DiffSide) (number : Nat) (lines : List (List Char)) : Nat :=
  lines.foldl (nextNumber side) number

/-- The line does not begin with two marks of its side. -/
def DiffSide.Plain (side : DiffSide) (text : List Char) : Prop :=
  [side.mark, side.mark].isPrefixOf text = false

namespace DiffState

def line (side : DiffSide) (state : DiffState) : Nat :=
  match side with
  | .parent => state.oldLine
  | .revision => state.newLine

def advance (side : DiffSide) (count : Nat) (state : DiffState) : DiffState :=
  match side with
  | .parent => { state with oldLine := state.oldLine + count }
  | .revision => { state with newLine := state.newLine + count }

variable (side : DiffSide) (count : Nat) (state : DiffState)

@[simp]
theorem advance_result : (advance side count state).result = state.result := by
  cases side <;> rfl

@[simp]
theorem advance_oldPath : (advance side count state).oldPath = state.oldPath := by
  cases side <;> rfl

@[simp]
theorem advance_newPath : (advance side count state).newPath = state.newPath := by
  cases side <;> rfl

@[simp]
theorem advance_path : (advance side count state).path = state.path := by
  cases side <;> rfl

@[simp]
theorem advance_line : (advance side count state).line side = state.line side + count := by
  cases side <;> rfl

end DiffState

section Heads

theorem startsWith_append (literal : String) (text : List Char) :
    startsWith literal (literal.toList ++ text) = true :=
  List.isPrefixOf_iff_prefix.mpr (List.prefix_append _ _)

/-- A line with another first character does not start with a literal. -/
theorem startsWith_of_head {literal : String} {mark : Char} {others line : List Char}
    (chars : literal.toList = mark :: others) (other : line.head? ≠ some mark) :
    startsWith literal line = false := by
  unfold startsWith
  rw [chars]
  cases line with
  | nil => rfl
  | cons char line =>
      have different : (mark == char) = false := by
        apply beq_eq_false_iff_ne.mpr
        intro same
        exact other (by rw [same]; rfl)
      rw [List.isPrefixOf_cons_cons, different, Bool.false_and]

theorem afterLiteral_of_head {literal : String} {mark : Char} {others line : List Char}
    (chars : literal.toList = mark :: others) (other : line.head? ≠ some mark) :
    afterLiteral literal line = none := by
  have plain := startsWith_of_head chars other
  unfold startsWith at plain
  rw [afterLiteral, plain]
  rfl

theorem head_ne {char mark : Char} (other : char ≠ mark) (text : List Char) :
    (char :: text).head? ≠ some mark := by
  simpa using other

theorem matchHunk_of_head {char : Char} (other : char ≠ '@') (text : List Char) :
    matchHunk (char :: text) = none := by
  have chars : "@@ -".toList = '@' :: ['@', ' ', '-'] := by simp
  rw [matchHunk, afterLiteral_of_head chars (head_ne other text)]
  rfl

theorem namedPath_of_head (side : DiffSide) {char : Char} (other : char ≠ side.mark)
    (text : List Char) :
    namedPath side (char :: text) = none := by
  cases side with
  | parent =>
      have chars : "--- a/".toList = '-' :: ['-', '-', ' ', 'a', '/'] := by simp
      have different : char :: text ≠ "--- /dev/null".toList := by
        intro same
        rw [String.toList_ofList] at same
        exact other (List.cons.inj same).1
      rw [namedPath, startsWith_of_head chars (head_ne other text), if_neg different]
      rfl
  | revision =>
      have chars : "+++ b/".toList = '+' :: ['+', '+', ' ', 'b', '/'] := by simp
      have different : char :: text ≠ "+++ /dev/null".toList := by
        intro same
        rw [String.toList_ofList] at same
        exact other (List.cons.inj same).1
      rw [namedPath, startsWith_of_head chars (head_ne other text), if_neg different]
      rfl

theorem nextNumber_of_head {char : Char} (other : char ≠ '@' ∧ char ≠ ' ')
    (side : DiffSide) (number : Nat) (text : List Char) :
    nextNumber side number (char :: text) = number := by
  have chars : " ".toList = ' ' :: [] := by simp
  rw [nextNumber, matchHunk_of_head other.1, startsWith_of_head chars (head_ne other.2 text)]
  rfl

end Heads

section Lines

variable (state : DiffState)

/-- A line that starts with none of the marks is passed over. -/
theorem parseLine_unmarked {char : Char} (text : List Char)
    (unmarked : char ≠ '-' ∧ char ≠ '+' ∧ char ≠ '@' ∧ char ≠ ' ') :
    state.parseLine (char :: text) = .ok state := by
  obtain ⟨minus, plus, at_, blank⟩ := unmarked
  simp [DiffState.parseLine, startsWith, matchHunk, afterLiteral, minus, plus,
    minus.symm, plus.symm, at_.symm, blank.symm]

/-- A changed line is appended, unless it looks like a header line. -/
theorem parseLine_changed (side : DiffSide) {text : List Char}
    (plain : side.Plain text) :
    state.parseLine (side.mark :: text) =
      (state.append side (state.line side) text).map (DiffState.advance side 1) := by
  cases side with
  | parent =>
      have marks : ['-', '-'].isPrefixOf text = false := plain
      have path := not_isPrefixOf_of_marks marks
      simp [DiffState.parseLine, startsWith, matchHunk, afterLiteral, DiffSide.mark,
        DiffState.line, path]
      cases state.append DiffSide.parent state.oldLine text <;> rfl
  | revision =>
      have marks : ['+', '+'].isPrefixOf text = false := plain
      have path := not_isPrefixOf_of_marks marks
      simp [DiffState.parseLine, startsWith, matchHunk, afterLiteral, DiffSide.mark,
        DiffState.line, path]
      cases state.append DiffSide.revision state.newLine text <;> rfl

theorem append_eq {path : List Char} (known : state.path = some path)
    (side : DiffSide) {line : Nat} (positive : 1 ≤ line) (text : List Char) :
    state.append side line text =
      .ok
        { state with
          result := state.result ++
            [{ path := String.ofList path, side, line
               text := String.ofList text }] } := by
  simp [DiffState.append, known, makeChangedLine, Nat.not_lt.mpr positive]

/-- The changed lines of one side are appended with successive numbers. -/
theorem parse_changed (side : DiffSide) {path : List Char} {lines : List (List Char)}
    (known : state.path = some path) (plain : ∀ text ∈ lines, side.Plain text)
    (positive : lines ≠ [] → 1 ≤ state.line side) :
    (lines.map fun text => side.mark :: text).foldlM DiffState.parseLine state =
      .ok
        (DiffState.advance side lines.length
          { state with
            result := state.result ++
              DiffHunk.numbered side path (state.line side) lines }) := by
  induction lines generalizing state with
  | nil => cases side <;> simp [DiffState.advance, DiffHunk.numbered]
  | cons text lines inductionHypothesis =>
      have start := positive (List.cons_ne_nil text lines)
      have first := plain text List.mem_cons_self
      let next := DiffState.advance side 1
        { state with
          result := state.result ++
            [{ path := String.ofList path, side, line := state.line side
               text := String.ofList text }] }
      have line : next.line side = state.line side + 1 := by
        cases side <;> rfl
      have others := inductionHypothesis next
        (by cases side <;> exact known)
        (fun other member => plain other (List.mem_cons_of_mem text member))
        (fun _ => by rw [line]; omega)
      rw [List.map_cons, List.foldlM_cons, parseLine_changed state side first,
        append_eq state known side start]
      show List.foldlM DiffState.parseLine next _ = _
      rw [others]
      cases side <;>
        simp [next, DiffState.advance, DiffState.line, DiffHunk.numbered,
          List.mapIdx_cons, Nat.add_assoc, Nat.add_comm 1]

theorem parseLine_oldSide (path : Option PlainPath) :
    state.parseLine (FileSection.side "---" 'a' path) =
      .ok
        { state with
          oldPath := path.map fun path => FileSection.hinted path.chars } := by
  cases path with
  | none => simp [FileSection.side, DiffState.parseLine, startsWith]
  | some path => simp [FileSection.side, DiffState.parseLine, startsWith]

theorem parseLine_newSide (path : Option PlainPath) :
    state.parseLine (FileSection.side "+++" 'b' path) =
      .ok
        { state with
          newPath := path.map fun path => FileSection.hinted path.chars } := by
  cases path with
  | none => simp [FileSection.side, DiffState.parseLine, startsWith]
  | some path => simp [FileSection.side, DiffState.parseLine, startsWith]

/-- The count of a range is skipped. -/
theorem skipCount_range (count : Nat) (rest : List Char) :
    skipCount
        ((if count = 1 then [] else ',' :: Nat.toDigits 10 count) ++ ' ' :: rest) =
      ' ' :: rest := by
  have blank : decimalDigit ' ' = none := by decide
  by_cases single : count = 1
  · simp [single, skipCount, afterLiteral]
  · have read_ := readNumber_toDigits count
      (show ∀ char ∈ (' ' :: rest).head?, decimalDigit char = none by simpa using blank)
    have begins : afterLiteral ","
        (',' :: (Nat.toDigits 10 count ++ ' ' :: rest)) =
          some (Nat.toDigits 10 count ++ ' ' :: rest) :=
      afterLiteral_append "," _
    rw [if_neg single, List.cons_append, skipCount, begins, Option.bind_some, read_]

/-- A range is read as its start line. -/
theorem readNumber_range (start count : Nat) (rest : List Char) :
    ∃ after, readNumber (DiffHunk.range start count ++ ' ' :: rest) =
        some (start, after) ∧
      skipCount after = ' ' :: rest := by
  have blank : decimalDigit ' ' = none := by decide
  have comma : decimalDigit ',' = none := by decide
  refine ⟨_, ?_, skipCount_range count rest⟩
  rw [DiffHunk.range, List.append_assoc]
  apply readNumber_toDigits
  by_cases single : count = 1
  · simpa [single] using blank
  · simpa [single] using comma

theorem parseLine_hunk {raw : List Char} {oldLine newLine : Nat}
    (matched : matchHunk ('@' :: raw) = some (oldLine, newLine)) :
    state.parseLine ('@' :: raw) = .ok { state with oldLine, newLine } := by
  simp [DiffState.parseLine, startsWith, matched]

/-- A line that starts with `---` at most names the old path. -/
theorem parseLine_minus {text : List Char}
    (header : startsWith "---" ('-' :: text) = true) :
    state.parseLine ('-' :: text) =
      .ok
        { state with oldPath := (namedPath .parent ('-' :: text)).getD state.oldPath } := by
  unfold DiffState.parseLine namedPath
  by_cases path : startsWith "--- a/" ('-' :: text) = true
  · rw [if_pos path, if_pos path]
    rfl
  by_cases absent : '-' :: text = "--- /dev/null".toList
  · rw [if_neg path, if_pos absent, if_neg path, if_pos absent]
    rfl
  · rw [if_neg path, if_neg absent, if_neg path, if_neg absent,
      matchHunk_of_head (by decide), header]
    simp [startsWith]

/-- A line that starts with `+++` at most names the new path. -/
theorem parseLine_plus {text : List Char}
    (header : startsWith "+++" ('+' :: text) = true) :
    state.parseLine ('+' :: text) =
      .ok
        { state with newPath := (namedPath .revision ('+' :: text)).getD state.newPath } := by
  have chars : "--- a/".toList = '-' :: ['-', '-', ' ', 'a', '/'] := by simp
  have old : startsWith "--- a/" ('+' :: text) = false :=
    startsWith_of_head chars (head_ne (by decide) text)
  have different : '+' :: text ≠ "--- /dev/null".toList := by simp
  unfold DiffState.parseLine namedPath
  rw [old, if_neg Bool.false_ne_true, if_neg different]
  by_cases path : startsWith "+++ b/" ('+' :: text) = true
  · rw [if_pos path, if_pos path]
    rfl
  by_cases absent : '+' :: text = "+++ /dev/null".toList
  · rw [if_neg path, if_pos absent, if_neg path, if_pos absent]
    rfl
  · rw [if_neg path, if_neg absent, if_neg path, if_neg absent,
      matchHunk_of_head (by decide), header]
    simp [startsWith]

/-- A line that is not read as a changed line at most names a path and sets or counts
the numbers of the next lines. -/
theorem parseLine_silent {raw : List Char} (silent : emits raw = false) :
    state.parseLine raw =
      .ok
        { state with
          oldPath := (namedPath .parent raw).getD state.oldPath
          newPath := (namedPath .revision raw).getD state.newPath
          oldLine := nextNumber .parent state.oldLine raw
          newLine := nextNumber .revision state.newLine raw } := by
  cases raw with
  | nil =>
      simp [DiffState.parseLine, startsWith, matchHunk, afterLiteral, namedPath, nextNumber]
  | cons char text =>
      by_cases minus : char = '-'
      · subst minus
        rw [namedPath_of_head .revision (by decide), nextNumber_of_head (by decide),
          nextNumber_of_head (by decide)]
        exact parseLine_minus state (by simpa [emits, startsWith] using silent)
      by_cases plus : char = '+'
      · subst plus
        rw [namedPath_of_head .parent (by decide), nextNumber_of_head (by decide),
          nextNumber_of_head (by decide)]
        exact parseLine_plus state (by simpa [emits, startsWith] using silent)
      rw [namedPath_of_head .parent minus, namedPath_of_head .revision plus]
      by_cases at_ : char = '@'
      · subst at_
        unfold DiffState.parseLine nextNumber
        cases matchHunk ('@' :: text) with
        | some numbers => simp [startsWith]
        | none => simp [startsWith]
      by_cases blank : char = ' '
      · subst blank
        simp [DiffState.parseLine, startsWith, matchHunk_of_head, nextNumber]
      · rw [nextNumber_of_head ⟨at_, blank⟩, nextNumber_of_head ⟨at_, blank⟩]
        exact parseLine_unmarked state text ⟨minus, plus, at_, blank⟩

/-- The header of a hunk tells its start lines, whatever follows the ranges. -/
theorem parseLine_ranges (hunk : DiffHunk) (heading : List Char) :
    state.parseLine (hunk.ranges ++ heading) =
      .ok { state with oldLine := hunk.oldStart, newLine := hunk.newStart } := by
  let ending := '@' :: '@' :: heading
  let new := DiffHunk.range hunk.newStart hunk.added.length ++ ' ' :: ending
  let old := DiffHunk.range hunk.oldStart hunk.removed.length ++ ' ' :: '+' :: new
  obtain ⟨newRest, newRead, newSkipped⟩ :=
    readNumber_range hunk.newStart hunk.added.length ending
  obtain ⟨oldRest, oldRead, oldSkipped⟩ :=
    readNumber_range hunk.oldStart hunk.removed.length ('+' :: new)
  have text : hunk.ranges ++ heading = '@' :: '@' :: ' ' :: '-' :: old := by
    simp [DiffHunk.ranges, old, new, ending]
  have oldBegins : afterLiteral "@@ -" ('@' :: '@' :: ' ' :: '-' :: old) = some old :=
    afterLiteral_append "@@ -" old
  have newBegins : afterLiteral " +" (' ' :: '+' :: new) = some new :=
    afterLiteral_append " +" new
  have ends : afterLiteral " @@" (' ' :: ending) = some heading :=
    afterLiteral_append " @@" heading
  have matched : matchHunk ('@' :: '@' :: ' ' :: '-' :: old) =
      some (hunk.oldStart, hunk.newStart) := by
    rw [matchHunk, oldBegins, Option.bind_some, oldRead]
    simp only [Option.bind_eq_bind, Option.bind_some, oldSkipped, newBegins]
    rw [newRead]
    simp only [Option.bind_some, newSkipped, ends]
    rfl
  rw [text]
  exact parseLine_hunk state matched

/-- The remark below a last line without a line feed is passed over. -/
theorem parse_unended (lines : List (List Char)) (flag : Bool) :
    (DiffHunk.unended lines flag).foldlM DiffState.parseLine state = .ok state := by
  unfold DiffHunk.unended
  split
  · have marked : "\\ No newline at end of file".toList =
        '\\' :: " No newline at end of file".toList := by simp
    rw [List.foldlM_cons, marked, parseLine_unmarked state _ (by decide)]
    rfl
  · rfl

/-- The state after lines that are not read as changed lines. -/
def DiffState.passed (lines : List (List Char)) : DiffState :=
  { state with
    oldPath := pathAfter .parent state.oldPath lines
    newPath := pathAfter .revision state.newPath lines
    oldLine := numberAfter .parent state.oldLine lines
    newLine := numberAfter .revision state.newLine lines }

theorem parse_silent {lines : List (List Char)}
    (silent : ∀ raw ∈ lines, emits raw = false) :
    lines.foldlM DiffState.parseLine state = .ok (state.passed lines) := by
  induction lines generalizing state with
  | nil => rfl
  | cons raw lines inductionHypothesis =>
      rw [List.foldlM_cons, parseLine_silent state (silent raw List.mem_cons_self)]
      exact inductionHypothesis _ fun other member =>
        silent other (List.mem_cons_of_mem raw member)

end Lines

end PeReview
