import PeReview.Repos.UnifiedDiff

/-!
# The lines of a diff as they are split

`str.splitlines` may break a heading, a path never.
-/

namespace PeReview

/-- The lines that a heading breaks into, without the first, which ends the header. -/
def DiffHunk.further (hunk : DiffHunk) : List (List Char) :=
  (splitlinesFrom [] (hunk.heading ++ ['\n'])).drop 1

theorem unbroken_toDigits (number : Nat) : Unbroken (Nat.toDigits 10 number) := by
  intro char member
  have digit := Nat.isDigit_of_mem_toDigits (by decide) (by decide) member
  have bounds : 48 ≤ char.toNat ∧ char.toNat ≤ 57 := by
    simpa [Char.isDigit, UInt32.le_iff_toNat_le] using digit
  have small : char.toNat ≠ 133 ∧ char.toNat ≠ 8232 ∧ char.toNat ≠ 8233 := by omega
  have high : ¬char.toNat ≤ 13 ∧ ¬char.toNat ≤ 30 := by omega
  simp [isLineBreak, small, high]

theorem unbroken_literal {literal : String}
    (plain : literal.toList.all (fun char => !isLineBreak char) = true) :
    Unbroken literal.toList := by
  intro char member
  simpa using List.all_eq_true.mp plain char member

theorem unbroken_range (start count : Nat) :
    Unbroken (DiffHunk.range start count) := by
  refine (unbroken_toDigits start).append ?_
  split
  · exact unbroken_nil
  · exact (unbroken_toDigits count).cons (by decide)

theorem unbroken_ranges (hunk : DiffHunk) : Unbroken hunk.ranges := by
  have marks : ∀ marks : List Char, marks.all (fun char => !isLineBreak char) = true →
      Unbroken marks :=
    fun marks plain char member => by simpa using List.all_eq_true.mp plain char member
  exact
    (marks _ (by decide)).append
      (((unbroken_range _ _).append (marks _ (by decide))).append
        ((unbroken_range _ _).append (marks _ (by decide))))

theorem unbroken_path (path : PlainPath) : Unbroken path.chars :=
  fun char member => (path.plain char member).2.2.2.2

theorem unbroken_hinted (path : PlainPath) :
    Unbroken (FileSection.hinted path.chars) := by
  unfold FileSection.hinted
  split
  · exact (unbroken_path path).append (unbroken_nil.cons (by decide))
  · exact unbroken_path path

theorem unbroken_side {mark : String} {label : Char} (path : Option PlainPath)
    (plainMark : mark.toList.all (fun char => !isLineBreak char) = true)
    (plainLabel : isLineBreak label = false) :
    Unbroken (FileSection.side mark label path) := by
  refine (unbroken_literal plainMark).append ?_
  cases path with
  | none => exact unbroken_literal (by decide)
  | some path =>
      exact
        (((unbroken_hinted path).cons (by decide)).cons plainLabel).cons (by decide)

theorem unbroken_name (first second : Option PlainPath) :
    Unbroken (FileSection.name first second) := by
  cases first with
  | some path => exact unbroken_path path
  | none =>
      cases second with
      | some path => exact unbroken_path path
      | none => exact unbroken_nil

theorem unbroken_marked (side : DiffSide) (flag : Bool) {lines : List (List Char)}
    (unbroken : ∀ text ∈ lines, Unbroken text) :
    ∀ line ∈ DiffHunk.marked side lines flag, Unbroken line := by
  intro line member
  rcases List.mem_append.mp member with changed | remark
  · obtain ⟨text, known, rfl⟩ := List.mem_map.mp changed
    exact (unbroken text known).cons (by cases side <;> decide)
  · unfold DiffHunk.unended at remark
    split at remark
    · obtain rfl := List.mem_singleton.mp remark
      exact unbroken_literal (by decide)
    · cases remark

/-- The header of a hunk is split before the further lines of its heading. -/
theorem splitlines_header (hunk : DiffHunk) :
    ∃ heading, splitlinesFrom [] (hunk.header ++ ['\n']) =
      (hunk.ranges ++ heading) :: hunk.further := by
  obtain ⟨first, others, split⟩ :=
    splitlinesFrom_first (show hunk.heading ++ ['\n'] ≠ [] by simp)
  have further : hunk.further = others := by
    rw [DiffHunk.further, split]
    rfl
  rw [further]
  by_cases none : hunk.heading = []
  · rw [none] at split
    have read_ := split hunk.ranges.reverse
    rw [List.reverse_reverse] at read_
    refine ⟨first, ?_⟩
    rw [DiffHunk.header, if_pos none, List.append_nil,
      splitlinesFrom_append (unbroken_ranges hunk), List.append_nil]
    exact read_
  · have blank : Unbroken (hunk.ranges ++ [' ']) :=
      (unbroken_ranges hunk).append (unbroken_nil.cons (by decide))
    have whole : hunk.header ++ ['\n'] =
        (hunk.ranges ++ [' ']) ++ (hunk.heading ++ ['\n']) := by
      simp [DiffHunk.header, none]
    refine ⟨' ' :: first, ?_⟩
    rw [whole, splitlinesFrom_append blank, split]
    simp

/-- The lines of a hunk as they are split. -/
def DiffHunk.readLines (hunk : DiffHunk) : List (List Char) :=
  splitlinesFrom [] (hunk.header ++ ['\n']) ++
    (DiffHunk.marked .parent hunk.removed hunk.oldUnended ++
      DiffHunk.marked .revision hunk.added hunk.newUnended)

def FileSection.preamble (file : FileSection) : List (List Char) :=
  ("diff --git a/".toList ++ FileSection.name file.oldPath file.newPath ++ " b/".toList ++
      FileSection.name file.newPath file.oldPath) ::
    (file.extended ++
      if file.hunks = [] then []
      else
        [FileSection.side "---" 'a' file.oldPath, FileSection.side "+++" 'b' file.newPath])

/-- The lines of a section as they are split. -/
def FileSection.readLines (file : FileSection) : List (List Char) :=
  file.preamble ++ file.hunks.flatMap DiffHunk.readLines

theorem rendered_eq (file : FileSection) :
    file.rendered = file.preamble ++ file.hunks.flatMap DiffHunk.rendered := by
  unfold FileSection.rendered FileSection.preamble
  by_cases none : file.hunks = []
  · simp [none]
  · simp [none]

theorem unbroken_preamble (file : FileSection) :
    ∀ line ∈ file.preamble, Unbroken line := by
  intro line member
  rcases List.mem_cons.mp member with rfl | below
  · exact
      (((unbroken_literal (by decide)).append (unbroken_name _ _)).append
        (unbroken_literal (by decide))).append (unbroken_name _ _)
  rcases List.mem_append.mp below with extended | sides
  · exact (file.worded line extended).2
  split at sides
  · cases sides
  rcases List.mem_cons.mp sides with rfl | sides
  · exact unbroken_side _ (by decide) (by decide)
  · obtain rfl := List.mem_singleton.mp sides
    exact unbroken_side _ (by decide) (by decide)

theorem unbroken_changed {hunk : DiffHunk}
    (unbroken : ∀ text ∈ hunk.removed ++ hunk.added, Unbroken text) :
    ∀ line ∈ DiffHunk.marked .parent hunk.removed hunk.oldUnended ++
      DiffHunk.marked .revision hunk.added hunk.newUnended, Unbroken line := by
  intro line member
  rcases List.mem_append.mp member with removed | added
  · exact
      unbroken_marked .parent _
        (fun text member => unbroken text (List.mem_append_left _ member)) line removed
  · exact
      unbroken_marked .revision _
        (fun text member => unbroken text (List.mem_append_right _ member)) line added

theorem single_header (hunk : DiffHunk) : '\n' ∉ hunk.header := by
  intro member
  rcases List.mem_append.mp member with ranges | heading
  · exact (unbroken_ranges hunk).not_mem_newline ranges
  · split at heading
    · cases heading
    · rcases List.mem_cons.mp heading with blank | within
      · cases blank
      · exact hunk.oneHeading within

/-- Unbroken changed lines leave all but the headings of a diff as git wrote them. -/
theorem splitlines_renderDiff {sections : List FileSection}
    (unbroken : ∀ file ∈ sections, ∀ hunk ∈ file.hunks,
      ∀ text ∈ hunk.removed ++ hunk.added, Unbroken text) :
    splitlinesFrom [] (renderDiff sections) = sections.flatMap FileSection.readLines := by
  have hunks : ∀ file ∈ sections, ∀ hunk ∈ file.hunks,
      (hunk.rendered.flatMap fun line => splitlinesFrom [] (line ++ ['\n'])) =
        hunk.readLines := by
    intro file known hunk member
    rw [DiffHunk.rendered, List.flatMap_cons,
      flatMap_splitlinesFrom (unbroken_changed (unbroken file known hunk member))]
    rfl
  have single : ∀ line ∈ sections.flatMap FileSection.rendered, '\n' ∉ line := by
    intro line member
    obtain ⟨file, known, within⟩ := List.mem_flatMap.mp member
    rw [rendered_eq] at within
    rcases List.mem_append.mp within with before | below
    · exact (unbroken_preamble file line before).not_mem_newline
    obtain ⟨hunk, inside, written⟩ := List.mem_flatMap.mp below
    rcases List.mem_cons.mp written with rfl | changed
    · exact single_header hunk
    · exact
        (unbroken_changed (unbroken file known hunk inside) line changed).not_mem_newline
  rw [renderDiff, splitlinesFrom_unlines single, List.flatMap_assoc]
  refine List.flatMap_congr fun file known => ?_
  rw [rendered_eq, List.flatMap_append, flatMap_splitlinesFrom (unbroken_preamble file),
    List.flatMap_assoc, FileSection.readLines]
  exact congrArg _ (List.flatMap_congr (hunks file known))

end PeReview
