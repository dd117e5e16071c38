import Mathlib.Data.List.Infix
import PeReview.Data.Placed
import PeReview.Repos.ChangedLinesExact
import PeReview.Review.Chunking

/-!
# The sections of a git diff

The sections `git diff` writes with context lines, and what the regular expressions of
`review/chunking.py` find in them.
-/

namespace PeReview

open PeReview.Data

/-- A path of a repository without a space. -/
structure SectionPath extends PlainPath where
  unspaced : ' ' ∉ chars
  relative : chars.head? ≠ some '/'

inductive SectionSides
  | added
  | deleted
  | both
  deriving DecidableEq, Repr

/-- A file in a diff.  A section without hunks has no `---` and `+++` lines: its file is
empty or binary, or only its name or its mode has changed. -/
structure GitSection where
  oldPath : SectionPath
  newPath : SectionPath
  sides : SectionSides
  /-- The lines below the first one, such as `new file mode 100644`. -/
  extended : List (List Char) := []
  /-- The lines below the `+++` line. -/
  hunks : List (List Char) := []
  samePath : sides ≠ .both → oldPath = newPath
  worded : ∀ line ∈ extended, '\n' ∉ line ∧
    startsWith "diff --git " line = false ∧ ∃ char ∈ line.head?, char.isAlpha = true
  marked : ∀ line ∈ hunks, '\n' ∉ line ∧
    ∃ char ∈ line.head?, char ∈ [' ', '+', '-', '@', '\\']
  onlyRemoved : sides = .deleted → ∀ line ∈ hunks, line.head? ≠ some '+'

namespace GitSection

/-- The file of a section: the new name, or that of the deleted file. -/
def path (part : GitSection) : String :=
  String.ofList part.newPath.chars

/-- `diff --git a/old b/new`. -/
def headerLine (part : GitSection) : List Char :=
  "diff --git a/".toList ++ (part.oldPath.chars ++ (" b/".toList ++ part.newPath.chars))

/-- The `---` line. -/
def oldSide (part : GitSection) : List Char :=
  match part.sides with
  | .added => "--- /dev/null".toList
  | .deleted | .both => "--- a/".toList ++ part.oldPath.chars

/-- The `+++` line. -/
def newSide (part : GitSection) : List Char :=
  match part.sides with
  | .deleted => "+++ /dev/null".toList
  | .added | .both => "+++ b/".toList ++ part.newPath.chars

def body (part : GitSection) : List (List Char) :=
  part.extended ++
    if part.hunks = [] then [] else part.oldSide :: part.newSide :: part.hunks

def lines (part : GitSection) : List (List Char) :=
  part.headerLine :: part.body

/-- The section as git writes it. -/
def text (part : GitSection) : List Char :=
  unlines part.lines

end GitSection

def renderSections (sections : List GitSection) : List Char :=
  sections.flatMap GitSection.text

namespace Chunking

/-- The path the pattern for `+++ b/` finds on a line. -/
def newPathOf (line : List Char) : Option (List Char) :=
  (afterLiteral "+++ b/" line).filter fun path => path ≠ []

/-- The paths that lines name, without `/dev/null`. -/
def namedPaths (lines : List (List Char)) : List String :=
  ((lines.filterMap newPathOf).map String.ofList).filter fun path => path ≠ "/dev/null"

theorem namedPaths_append (first second : List (List Char)) :
    namedPaths (first ++ second) = namedPaths first ++ namedPaths second := by
  simp [namedPaths]

theorem namedPaths_flatMap {Item : Type} (items : List Item)
    (lines : Item → List (List Char)) :
    namedPaths (items.flatMap lines) = items.flatMap fun item => namedPaths (lines item) := by
  induction items with
  | nil => rfl
  | cons item rest inductionHypothesis =>
      simp only [List.flatMap_cons, namedPaths_append, inductionHypothesis]

end Chunking

section Lines

/-- Text of whole lines splits into them, and a last empty one. -/
theorem splitOn_unlines {lines : List (List Char)} (whole : ∀ line ∈ lines, '\n' ∉ line) :
    (unlines lines).splitOn '\n' = lines ++ [[]] := by
  induction lines with
  | nil =>
      exact List.splitOn_nil _
  | cons line rest inductionHypothesis =>
      rw [List.forall_mem_cons] at whole
      have later := inductionHypothesis whole.2
      rw [unlines, List.flatMap_cons, List.append_assoc, List.singleton_append,
        List.splitOn_append_cons_self_of_not_mem whole.1]
      rw [unlines] at later
      rw [later]
      rfl

theorem unlines_append (first second : List (List Char)) :
    unlines (first ++ second) = unlines first ++ unlines second := by
  simp [unlines]

theorem unlines_cons (line : List Char) (rest : List (List Char)) :
    unlines (line :: rest) = line ++ '\n' :: unlines rest := by
  simp [unlines]

theorem unlines_flatMap {Item : Type} (items : List Item)
    (lines : Item → List (List Char)) :
    unlines (items.flatMap lines) = items.flatMap fun item => unlines (lines item) := by
  induction items with
  | nil => rfl
  | cons item rest inductionHypothesis =>
      simp only [List.flatMap_cons, unlines_append, inductionHypothesis]

/-- A literal without a line feed begins a text where it begins the first line. -/
theorem startsWith_line {literal : String} (single : '\n' ∉ literal.toList)
    (line rest : List Char) :
    startsWith literal (line ++ '\n' :: rest) = startsWith literal line := by
  unfold startsWith
  generalize literal.toList = chars at single
  induction chars generalizing line with
  | nil => simp
  | cons char chars inductionHypothesis =>
      rw [List.mem_cons, not_or] at single
      cases line with
      | nil =>
          have other : (char == '\n') = false :=
            beq_eq_false_iff_ne.mpr (Ne.symm single.1)
          simp [List.isPrefixOf, other]
      | cons first line =>
          simp only [List.cons_append, List.isPrefixOf_cons_cons,
            inductionHypothesis line single.2]

end Lines

namespace Chunking

/-- `_NEW_PATH.finditer` looks at every line. -/
theorem newPaths_unlines {lines : List (List Char)}
    (whole : ∀ line ∈ lines, '\n' ∉ line) :
    newPaths (unlines lines) = lines.filterMap newPathOf := by
  unfold newPaths
  rw [splitOn_unlines whole, List.filterMap_append]
  have last : ([[]] : List (List Char)).filterMap newPathOf = [] := by
    decide
  unfold newPathOf at last ⊢
  rw [last, List.append_nil]

/-- No header begins in the middle of a line. -/
theorem headerStarts_inside {line : List Char} (whole : '\n' ∉ line) (offset : Nat)
    (rest : List Char) :
    headerStarts false offset (line ++ '\n' :: rest) =
      headerStarts true (offset + line.length + 1) rest := by
  induction line generalizing offset with
  | nil =>
      simp [headerStarts]
  | cons char line inductionHypothesis =>
      rw [List.mem_cons, not_or] at whole
      have inside : decide (char = '\n') = false :=
        decide_eq_false (Ne.symm whole.1)
      rw [List.cons_append, headerStarts, inside, inductionHypothesis whole.2]
      simp only [Bool.false_and, Bool.false_eq_true, if_false, List.length_cons]
      congr 1
      omega

/-- A line is a header or is passed over. -/
theorem headerStarts_line {line : List Char} (whole : '\n' ∉ line) (offset : Nat)
    (rest : List Char) :
    headerStarts true offset (line ++ '\n' :: rest) =
      (if startsWith "diff --git " line then [offset] else []) ++
        headerStarts true (offset + line.length + 1) rest := by
  have single : '\n' ∉ "diff --git ".toList := by simp
  have begins := startsWith_line single line rest
  cases line with
  | nil =>
      simp [headerStarts, startsWith]
  | cons char line =>
      rw [List.mem_cons, not_or] at whole
      have inside : decide (char = '\n') = false :=
        decide_eq_false (Ne.symm whole.1)
      rw [List.cons_append] at begins ⊢
      rw [headerStarts, inside, headerStarts_inside whole.2, begins]
      have same : offset + 1 + line.length + 1 = offset + (char :: line).length + 1 := by
        simp only [List.length_cons]
        omega
      rw [same]
      split
      · simp_all
      · simp_all

/-- Lines that are no headers are passed over. -/
theorem headerStarts_unlines {lines : List (List Char)}
    (whole : ∀ line ∈ lines, '\n' ∉ line)
    (plain : ∀ line ∈ lines, startsWith "diff --git " line = false) (offset : Nat)
    (rest : List Char) :
    headerStarts true offset (unlines lines ++ rest) =
      headerStarts true (offset + (unlines lines).length) rest := by
  induction lines generalizing offset with
  | nil =>
      simp [unlines]
  | cons line lines inductionHypothesis =>
      rw [List.forall_mem_cons] at whole plain
      have later := inductionHypothesis whole.2 plain.2 (offset + line.length + 1)
      rw [unlines_cons, List.append_assoc, List.cons_append, headerStarts_line whole.1,
        plain.1, later]
      simp only [Bool.false_eq_true, if_false, List.nil_append, List.length_append,
        List.length_cons]
      congr 1
      omega

end Chunking

namespace GitSection

variable {part : GitSection}

theorem not_mem_path (path : SectionPath) : '\n' ∉ path.chars := by
  intro member
  have plain := (path.plain '\n' member).1
  exact absurd plain (by decide)

theorem whole_headerLine : '\n' ∉ part.headerLine := by
  have first : '\n' ∉ "diff --git a/".toList := by simp
  have second : '\n' ∉ " b/".toList := by simp
  intro member
  unfold headerLine at member
  rw [List.mem_append, List.mem_append, List.mem_append] at member
  rcases member with label | old | middle | new
  · exact first label
  · exact not_mem_path _ old
  · exact second middle
  · exact not_mem_path _ new

theorem startsWith_headerLine : startsWith "diff --git " part.headerLine = true := by
  have begins : "diff --git a/".toList = "diff --git ".toList ++ "a/".toList := by simp
  unfold headerLine
  rw [begins, List.append_assoc]
  exact startsWith_append _ _

theorem whole_oldSide : '\n' ∉ part.oldSide := by
  have first : '\n' ∉ "--- a/".toList := by simp
  unfold oldSide
  cases part.sides with
  | added => simp
  | deleted | both =>
      simp only [List.mem_append, first, not_mem_path, or_self, not_false_eq_true]

theorem whole_newSide : '\n' ∉ part.newSide := by
  have first : '\n' ∉ "+++ b/".toList := by simp
  unfold newSide
  cases part.sides with
  | deleted => simp
  | added | both =>
      simp only [List.mem_append, first, not_mem_path, or_self, not_false_eq_true]

theorem head_oldSide : part.oldSide.head? = some '-' := by
  unfold oldSide
  cases part.sides with
  | added | deleted | both => rfl

theorem head_newSide : part.newSide.head? = some '+' := by
  unfold newSide
  cases part.sides with
  | added | deleted | both => rfl

/-- A line of hunks begins with none of the letters of a header. -/
theorem head_hunk {line : List Char} (member : line ∈ part.hunks) :
    line.head? ≠ some 'd' := by
  intro begins
  obtain ⟨char, first, mark⟩ := (part.marked line member).2
  rw [begins, Option.mem_some_iff] at first
  rw [← first] at mark
  exact absurd mark (by decide)

theorem mem_body {line : List Char} (member : line ∈ part.body) :
    line ∈ part.extended ∨ line = part.oldSide ∨ line = part.newSide ∨
      line ∈ part.hunks := by
  rcases List.mem_append.mp member with early | late
  · exact Or.inl early
  · split at late
    · cases late
    · simp only [List.mem_cons] at late
      exact Or.inr late

theorem whole_body : ∀ line ∈ part.body, '\n' ∉ line := by
  intro line member
  rcases mem_body member with early | old | new | late
  · exact (part.worded line early).1
  · rw [old]
    exact whole_oldSide
  · rw [new]
    exact whole_newSide
  · exact (part.marked line late).1

theorem plain_body : ∀ line ∈ part.body, startsWith "diff --git " line = false := by
  have chars : "diff --git ".toList = 'd' :: "iff --git ".toList := by simp
  intro line member
  rcases mem_body member with early | old | new | late
  · exact (part.worded line early).2.1
  · apply startsWith_of_head chars
    rw [old, head_oldSide]
    decide
  · apply startsWith_of_head chars
    rw [new, head_newSide]
    decide
  · exact startsWith_of_head chars (head_hunk late)

theorem whole_lines : ∀ line ∈ part.lines, '\n' ∉ line :=
  List.forall_mem_cons.mpr ⟨whole_headerLine, whole_body⟩

theorem text_eq : part.text = part.headerLine ++ '\n' :: unlines part.body :=
  unlines_cons _ _

theorem text_pos (part : GitSection) : 0 < part.text.length := by
  rw [text_eq, List.length_append, List.length_cons]
  omega

/-- What the pattern for `+++ b/` finds in a section. -/
def named (part : GitSection) : List String :=
  if part.hunks = [] ∨ part.sides = .deleted then []
  else part.path :: Chunking.namedPaths part.hunks

end GitSection

namespace Chunking

theorem newPathOf_of_not {line : List Char} (other : startsWith "+++ b/" line = false) :
    newPathOf line = none := by
  unfold startsWith at other
  unfold newPathOf afterLiteral
  rw [other]
  rfl

theorem newPathOf_of_head {line : List Char} (other : line.head? ≠ some '+') :
    newPathOf line = none := by
  have chars : "+++ b/".toList = '+' :: "++ b/".toList := by simp
  exact newPathOf_of_not (startsWith_of_head chars other)

theorem newPathOf_path (path : SectionPath) :
    newPathOf ("+++ b/".toList ++ path.chars) = some path.chars := by
  unfold newPathOf
  rw [afterLiteral_append]
  simp [path.nonempty]

theorem namedPaths_eq_nil {lines : List (List Char)}
    (others : ∀ line ∈ lines, newPathOf line = none) : namedPaths lines = [] := by
  have none_ : lines.filterMap newPathOf = [] :=
    List.filterMap_eq_nil_iff.mpr others
  simp [namedPaths, none_]

/-- A path of a repository is not that of the null device. -/
theorem path_ne_null (part : GitSection) : part.path ≠ "/dev/null" := by
  intro same
  apply part.newPath.relative
  have chars := congrArg String.toList same
  rw [GitSection.path, String.toList_ofList] at chars
  rw [chars]
  simp

/-- The pattern for `+++ b/` finds the path of a section with hunks, unless its file was
deleted, and what its added lines imitate. -/
theorem namedPaths_lines (part : GitSection) : namedPaths part.lines = part.named := by
  have header : newPathOf part.headerLine = none := by
    apply newPathOf_of_head
    have chars : "diff --git a/".toList = 'd' :: "iff --git a/".toList := by simp
    unfold GitSection.headerLine
    rw [chars, List.cons_append, List.head?_cons]
    decide
  have extended : namedPaths part.extended = [] := by
    apply namedPaths_eq_nil
    intro line member
    apply newPathOf_of_head
    intro begins
    obtain ⟨char, first, alpha⟩ := (part.worded line member).2.2
    rw [begins, Option.mem_some_iff] at first
    rw [← first] at alpha
    exact absurd alpha (by decide)
  have start : namedPaths part.lines = namedPaths part.body := by
    simp [GitSection.lines, namedPaths, header]
  rw [start, GitSection.body, namedPaths_append, extended, List.nil_append]
  unfold GitSection.named
  by_cases empty : part.hunks = []
  · simp [empty, namedPaths]
  rw [if_neg empty]
  have old : newPathOf part.oldSide = none := by
    apply newPathOf_of_head
    rw [GitSection.head_oldSide]
    decide
  by_cases deleted : part.sides = .deleted
  · rw [if_pos (Or.inr deleted)]
    apply namedPaths_eq_nil
    intro line member
    simp only [List.mem_cons] at member
    rcases member with first | second | hunk
    · rw [first]
      exact old
    · rw [second, GitSection.newSide, deleted]
      apply newPathOf_of_not
      simp [startsWith, List.isPrefixOf]
    · exact newPathOf_of_head (part.onlyRemoved deleted line hunk)
  · have new : newPathOf part.newSide = some part.newPath.chars := by
      unfold GitSection.newSide
      cases sides : part.sides with
      | deleted => exact absurd sides deleted
      | added | both => exact newPathOf_path part.newPath
    have kept : part.path ≠ "/dev/null" := path_ne_null part
    rw [if_neg (not_or.mpr ⟨empty, deleted⟩)]
    unfold GitSection.path at kept ⊢
    simp [namedPaths, old, new, kept]

theorem headerStarts_text (part : GitSection) (offset : Nat) (rest : List Char) :
    headerStarts true offset (part.text ++ rest) =
      offset :: headerStarts true (offset + part.text.length) rest := by
  rw [GitSection.text_eq, List.append_assoc, List.cons_append,
    headerStarts_line GitSection.whole_headerLine, GitSection.startsWith_headerLine,
    if_pos rfl, headerStarts_unlines GitSection.whole_body GitSection.plain_body]
  simp only [List.singleton_append, List.length_append, List.length_cons]
  congr 2
  omega

/-- `_DIFF_HEADER.finditer` finds the beginnings of the sections. -/
theorem headerStarts_sections (sections : List GitSection) (offset : Nat) :
    headerStarts true offset (renderSections sections) =
      (placed (fun part => part.text.length) offset sections).map Prod.fst := by
  induction sections generalizing offset with
  | nil => rfl
  | cons part rest inductionHypothesis =>
      unfold renderSections at inductionHypothesis ⊢
      rw [List.flatMap_cons, headerStarts_text, inductionHypothesis]
      rfl

theorem slices_singleton (text : List Char) (stop : Nat) : slices text [stop] = [] :=
  rfl

/-- The first cut of a text. -/
theorem slices_cons (before part rest : List Char) (stops : List Nat) :
    slices (before ++ (part ++ rest))
        (before.length :: (before.length + part.length) :: stops) =
      part ::
        slices (before ++ (part ++ rest)) ((before.length + part.length) :: stops) := by
  have width : before.length + part.length - before.length = part.length := by
    omega
  rw [slices, width, List.drop_left, List.take_left]

/-- A text cut where its parts begin gives its parts. -/
theorem slices_placed {parts : List (List Char)} (before : List Char) :
    slices (before ++ parts.flatten)
        ((placed List.length before.length parts).map Prod.fst ++
          [(before ++ parts.flatten).length]) =
      parts := by
  induction parts generalizing before with
  | nil =>
      simp [placed, slices]
  | cons part rest inductionHypothesis =>
      have later := inductionHypothesis (before ++ part)
      rw [List.append_assoc, List.length_append] at later
      rw [List.flatten_cons, placed, List.map_cons, List.cons_append]
      cases rest with
      | nil =>
          simp only [placed, List.map_nil, List.nil_append, List.length_append,
            List.flatten_nil, List.length_nil, Nat.add_zero]
          rw [slices_cons, slices_singleton]
      | cons next rest =>
          simp only [placed, List.map_cons, List.cons_append] at later ⊢
          rw [slices_cons, later]

theorem renderSections_eq (sections : List GitSection) :
    renderSections sections = (sections.map GitSection.text).flatten :=
  List.flatMap_def

/-- `chunk_diff` cuts a diff into its sections. -/
theorem slices_sections (part : GitSection) (rest : List GitSection) :
    slices (renderSections (part :: rest))
        (boundaries (renderSections (part :: rest))
          (headerStarts true 0 (renderSections (part :: rest)))) =
      (part :: rest).map GitSection.text := by
  have cut : slices ([] ++ ((part :: rest).map GitSection.text).flatten)
      ((placed List.length 0 ((part :: rest).map GitSection.text)).map Prod.fst ++
        [([] ++ ((part :: rest).map GitSection.text).flatten).length]) =
        (part :: rest).map GitSection.text :=
    slices_placed []
  have starts : boundaries (renderSections (part :: rest))
      (headerStarts true 0 (renderSections (part :: rest))) =
      (placed List.length 0 ((part :: rest).map GitSection.text)).map Prod.fst ++
        [(renderSections (part :: rest)).length] := by
    rw [headerStarts_sections, placed_map, List.map_map]
    rfl
  rw [List.nil_append, ← renderSections_eq] at cut
  rw [starts, cut]

/-- The first line of a section names the file. -/
theorem secondPath_header {old new : List Char} (nonempty : old ≠ [])
    (unspaced : ' ' ∉ old) (named : new ≠ []) :
    secondPath (old ++ (" b/".toList ++ new)) = some new := by
  have chars : " b/".toList = ' ' :: "b/".toList := by simp
  induction old with
  | nil =>
      exact absurd rfl nonempty
  | cons char rest inductionHypothesis =>
      rw [List.mem_cons, not_or] at unspaced
      cases rest with
      | nil =>
          cases new with
          | nil => exact absurd rfl named
          | cons first path =>
              rw [List.cons_append, List.nil_append, secondPath, afterLiteral_append]
      | cons next rest =>
          have other : next ≠ ' ' := by
            intro same
            exact unspaced.2 (by rw [same]; exact List.mem_cons_self)
          have later := inductionHypothesis (List.cons_ne_nil next rest) unspaced.2
          rw [List.cons_append] at later
          rw [List.cons_append, List.cons_append, secondPath,
            afterLiteral_of_head chars (head_ne other _), later]

theorem unbroken_headerLine (part : GitSection) : Unbroken part.headerLine := by
  have whole (path : SectionPath) : Unbroken path.chars :=
    fun char member => (path.plain char member).2.2.2.2
  have label : Unbroken "diff --git a/".toList := by
    unfold Unbroken
    simp [isLineBreak]
  have middle : Unbroken " b/".toList := by
    unfold Unbroken
    simp [isLineBreak]
  unfold GitSection.headerLine
  exact label.append ((whole _).append (middle.append (whole _)))

/-- Where no `+++ b/` line names a path, the first line of the first section does. -/
theorem paths_unnamed (part : GitSection) (rest : List Char)
    (unnamed : ((newPaths (part.text ++ rest)).map String.ofList).filter
      (fun path => path ≠ "/dev/null") = []) :
    paths (part.text ++ rest) = [part.path] := by
  have first : (splitlinesFrom [] (part.text ++ rest)).headD [] = part.headerLine := by
    rw [GitSection.text_eq, List.append_assoc, List.cons_append,
      splitlinesFrom_line (unbroken_headerLine part)]
    rfl
  have named : (afterLiteral "diff --git a/" part.headerLine).bind secondPath =
      some part.newPath.chars := by
    unfold GitSection.headerLine
    rw [afterLiteral_append, Option.bind_some]
    exact secondPath_header part.oldPath.nonempty part.oldPath.unspaced
      part.newPath.nonempty
  unfold paths
  simp only [unnamed, ne_eq, not_true_eq_false, if_false, first, named]
  rfl

theorem filtered_newPaths {lines : List (List Char)}
    (whole : ∀ line ∈ lines, '\n' ∉ line) :
    ((newPaths (unlines lines)).map String.ofList).filter
      (fun path => path ≠ "/dev/null") = namedPaths lines := by
  rw [newPaths_unlines whole]
  rfl

/-- The paths of a section. -/
theorem paths_section (part : GitSection) :
    paths part.text = if part.named ≠ [] then part.named.eraseDups else [part.path] := by
  have whole : ∀ line ∈ part.lines, '\n' ∉ line := GitSection.whole_lines
  have found := filtered_newPaths whole
  rw [namedPaths_lines] at found
  by_cases unnamed : part.named = []
  · rw [if_neg (not_not.mpr unnamed)]
    have only := paths_unnamed part []
    rw [List.append_nil] at only
    apply only
    rw [← unnamed, ← found]
    rfl
  · rw [if_pos unnamed]
    unfold paths GitSection.text
    rw [found, if_pos unnamed]

theorem renderSections_unlines (sections : List GitSection) :
    renderSections sections = unlines (sections.flatMap GitSection.lines) := by
  rw [unlines_flatMap]
  rfl

/-- The paths of a diff taken as a whole. -/
theorem paths_sections (part : GitSection) (rest : List GitSection) :
    paths (renderSections (part :: rest)) =
      if (part :: rest).flatMap GitSection.named ≠ [] then
        ((part :: rest).flatMap GitSection.named).eraseDups
      else [part.path] := by
  have whole : ∀ line ∈ (part :: rest).flatMap GitSection.lines, '\n' ∉ line := by
    intro line member
    obtain ⟨other, _, isLine⟩ := List.mem_flatMap.mp member
    exact GitSection.whole_lines line isLine
  have found := filtered_newPaths whole
  rw [namedPaths_flatMap, ← renderSections_unlines] at found
  simp only [namedPaths_lines] at found
  by_cases unnamed : (part :: rest).flatMap GitSection.named = []
  · rw [if_neg (not_not.mpr unnamed)]
    unfold renderSections at found ⊢
    rw [List.flatMap_cons] at found ⊢
    apply paths_unnamed
    rw [← unnamed]
    exact found
  · rw [if_pos unnamed]
    unfold paths
    rw [found, if_pos unnamed]

end Chunking

end PeReview
