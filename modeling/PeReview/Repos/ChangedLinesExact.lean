import PeReview.Repos.ChangedLinesRead
import PeReview.Repos.DiffLines

/-!
# When the changed lines of a diff are read exactly

`_parse_changed_lines` reads the changed lines of a diff back as git wrote them
when no line looks like a header line or contains another line break, the lines that a
heading breaks into tell nothing, and no path contains a space.
-/

namespace PeReview

open PeReview.Data

/-- The lines of a hunk do not look like header lines. -/
def DiffHunk.Plain (hunk : DiffHunk) : Prop :=
  (∀ text ∈ hunk.removed, DiffSide.parent.Plain text) ∧
    ∀ text ∈ hunk.added, DiffSide.revision.Plain text

def DiffHunk.changed (hunk : DiffHunk) : DiffSide → List (List Char)
  | .parent => hunk.removed
  | .revision => hunk.added

def DiffHunk.start (hunk : DiffHunk) : DiffSide → Nat
  | .parent => hunk.oldStart
  | .revision => hunk.newStart

/-- The changed lines of a hunk are read as they are, and with their numbers: no further
line of the heading is read as a changed line, and the last of these that looks like a hunk
header, with the blank lines after it, leads to the start line of each side with changes. -/
structure DiffHunk.Legible (hunk : DiffHunk) : Prop where
  plain : hunk.Plain
  unbroken : ∀ text ∈ hunk.removed ++ hunk.added, Unbroken text
  silent : ∀ raw ∈ hunk.further, emits raw = false
  numbers : ∀ side, hunk.changed side ≠ [] →
    numberAfter side (hunk.start side) hunk.further = hunk.start side

/-- The path in the header line of one side. -/
def FileSection.named (file : FileSection) : DiffSide → Option (List Char)
  | .parent => file.oldPath.map fun path => FileSection.hinted path.chars
  | .revision => file.newPath.map fun path => FileSection.hinted path.chars

/-- At every hunk the paths named last, in the header or in a heading before, are read
as one path. -/
def PathKept (path : List Char) :
    Option (List Char) → Option (List Char) → List DiffHunk → Prop
  | _, _, [] => True
  | oldPath, newPath, hunk :: hunks =>
      let oldPath := pathAfter .parent oldPath hunk.further
      let newPath := pathAfter .revision newPath hunk.further
      DiffState.path { oldPath, newPath } = some path ∧ PathKept path oldPath newPath hunks

/-- The changed lines of a section are read as they are, under its path. -/
structure FileSection.Legible (file : FileSection) : Prop where
  hunks : ∀ hunk ∈ file.hunks, hunk.Legible
  path : PathKept file.path (file.named .parent) (file.named .revision) file.hunks

/-- The lines that the headings of a diff break into. -/
def furtherLines (sections : List FileSection) : List (List Char) :=
  sections.flatMap fun file => file.hunks.flatMap DiffHunk.further

/-- Headings add a changed line and name another path: one can take the place of a changed
line that is lost through the other. -/
def Entangled (sections : List FileSection) : Prop :=
  (∃ raw ∈ furtherLines sections, emits raw = true) ∧
    ∃ raw ∈ furtherLines sections, namesPath raw = true

section Results

variable {state next : DiffState}

/-- The lines read as changed lines are the marked lines that are plain. -/
theorem emits_iff {raw : List Char} :
    emits raw = true ↔ ∃ side : DiffSide, ∃ text, raw = side.mark :: text ∧ side.Plain text := by
  constructor
  · intro emitted
    cases raw with
    | nil => simp [emits, startsWith] at emitted
    | cons char text =>
        by_cases plus : char = '+'
        · subst plus
          have marks : ['+', '+'].isPrefixOf text = false := by
            simpa [emits, startsWith] using emitted
          exact ⟨.revision, text, rfl, marks⟩
        by_cases minus : char = '-'
        · subst minus
          have marks : ['-', '-'].isPrefixOf text = false := by
            simpa [emits, startsWith] using emitted
          exact ⟨.parent, text, rfl, marks⟩
        · have other := And.intro (Ne.symm plus) (Ne.symm minus)
          simp [emits, startsWith, other.1, other.2] at emitted
  · rintro ⟨side, text, rfl, plain⟩
    cases side with
    | parent =>
        have marks : ['-', '-'].isPrefixOf text = false := plain
        simp [emits, startsWith, DiffSide.mark, marks]
    | revision =>
        have marks : ['+', '+'].isPrefixOf text = false := plain
        simp [emits, startsWith, DiffSide.mark, marks]

theorem append_cases {side : DiffSide} {line : Nat} {text : List Char}
    (appended : state.append side line text = .ok next) :
    (state.path = none ∧ next = state) ∨
      ∃ path, state.path = some path ∧ 1 ≤ line ∧
        next =
          { state with
            result := state.result ++
              [{ path := String.ofList path, side, line
                 text := String.ofList text }] } := by
  cases known : state.path with
  | none =>
      rw [DiffState.append, known] at appended
      cases appended
      exact .inl ⟨rfl, rfl⟩
  | some path =>
      by_cases positive : 1 ≤ line
      · rw [append_eq state known side positive] at appended
        cases appended
        exact .inr ⟨path, rfl, positive, rfl⟩
      · rw [DiffState.append, known] at appended
        simp [makeChangedLine, Nat.lt_of_not_le positive] at appended

/-- A changed line is appended when there is a path, and counted. -/
theorem parseLine_changed_cases {side : DiffSide} {text : List Char}
    (plain : side.Plain text) (parsed : state.parseLine (side.mark :: text) = .ok next) :
    (state.path = none ∧ next = DiffState.advance side 1 state) ∨
      ∃ path, state.path = some path ∧ 1 ≤ state.line side ∧
        next = DiffState.advance side 1
          { state with
            result := state.result ++
              [{ path := String.ofList path, side, line := state.line side
                 text := String.ofList text }] } := by
  rw [parseLine_changed state side plain] at parsed
  cases appended : state.append side (state.line side) text with
  | error raised =>
      rw [appended] at parsed
      cases parsed
  | ok middle =>
      rw [appended] at parsed
      cases parsed
      rcases append_cases appended with ⟨unknown, rfl⟩ | ⟨path, known, positive, rfl⟩
      · exact .inl ⟨unknown, rfl⟩
      · exact .inr ⟨path, known, positive, rfl⟩

/-- A line adds at most one changed line, which it holds. -/
theorem parseLine_result {raw : List Char} (parsed : state.parseLine raw = .ok next) :
    next.result = state.result ∨
      ∃ entry : ChangedLine, next.result = state.result ++ [entry] ∧
        raw = entry.side.mark :: entry.text.toList ∧
        entry.side.Plain entry.text.toList := by
  cases emitted : emits raw with
  | false =>
      rw [parseLine_silent state emitted] at parsed
      cases parsed
      exact .inl rfl
  | true =>
      obtain ⟨side, text, rfl, plain⟩ := emits_iff.mp emitted
      rcases parseLine_changed_cases plain parsed with ⟨_, rfl⟩ | ⟨path, _, _, rfl⟩
      · exact .inl (DiffState.advance_result side 1 state)
      · right
        refine ⟨_, DiffState.advance_result side 1 _, ?_, ?_⟩
        · rw [String.toList_ofList]
        · rw [String.toList_ofList]
          exact plain

/-- The texts of the changed lines that are read are unbroken and plain. -/
theorem parse_texts {diff : List Char} {result : List ChangedLine}
    (parsed : parseChangedLines diff = .ok result) :
    ∀ entry ∈ result, Unbroken entry.text.toList ∧ entry.side.Plain entry.text.toList := by
  obtain ⟨state, folded, returned⟩ := Except.bind_eq_ok.mp parsed
  cases returned
  let kept : DiffState → Prop := fun state =>
    ∀ entry ∈ state.result, Unbroken entry.text.toList ∧ entry.side.Plain entry.text.toList
  have preserved : ∀ raw ∈ splitlinesFrom [] diff, ∀ source target, kept source →
      DiffState.parseLine source raw = .ok target → kept target := by
    intro raw member source target before stepped entry found
    have unbroken := unbroken_of_mem_splitlinesFrom unbroken_nil raw member
    rcases parseLine_result stepped with same | ⟨last, longer, text, plain⟩
    · rw [same] at found
      exact before entry found
    · rw [longer] at found
      rcases List.mem_append.mp found with earlier | new
      · exact before entry earlier
      · obtain rfl := List.mem_singleton.mp new
        rw [text] at unbroken
        exact ⟨unbroken.of_subset (List.subset_cons_self _ _), plain⟩
  have start : kept {} := nofun
  exact Except.foldlM_preserves preserved start folded

end Results

section Runs

variable (state : DiffState)

/-- The changed lines that are read of the next lines of one side. -/
def DiffState.told (side : DiffSide) (lines : List (List Char)) : List ChangedLine :=
  match state.path with
  | none => []
  | some path => DiffHunk.numbered side path (state.line side) lines

def DiffState.changed (side : DiffSide) (lines : List (List Char)) : DiffState :=
  DiffState.advance side lines.length
    { state with result := state.result ++ state.told side lines }

/-- Without a path, changed lines are only counted. -/
theorem parse_unknown {side : DiffSide} {lines : List (List Char)}
    (unknown : state.path = none) (plain : ∀ text ∈ lines, side.Plain text) :
    (lines.map fun text => side.mark :: text).foldlM DiffState.parseLine state =
      .ok (DiffState.advance side lines.length state) := by
  induction lines generalizing state with
  | nil => cases side <;> rfl
  | cons text lines inductionHypothesis =>
      have first := plain text List.mem_cons_self
      have appended : state.append side (state.line side) text = .ok state := by
        rw [DiffState.append, unknown]
      have others := inductionHypothesis (DiffState.advance side 1 state)
        (by rw [DiffState.advance_path]; exact unknown)
        fun other member => plain other (List.mem_cons_of_mem text member)
      rw [List.map_cons, List.foldlM_cons, parseLine_changed state side first, appended]
      show List.foldlM DiffState.parseLine (DiffState.advance side 1 state) _ = _
      rw [others]
      cases side <;> simp [DiffState.advance, Nat.add_assoc, Nat.add_comm 1]

/-- The changed lines of one side are read under the path, if there is one. -/
theorem parse_marked {side : DiffSide} {lines : List (List Char)} {flag : Bool}
    (plain : ∀ text ∈ lines, side.Plain text)
    (positive : state.path ≠ none → lines ≠ [] → 1 ≤ state.line side) :
    (DiffHunk.marked side lines flag).foldlM DiffState.parseLine state =
      .ok (state.changed side lines) := by
  have changed : (lines.map fun text => side.mark :: text).foldlM DiffState.parseLine state =
      .ok (state.changed side lines) := by
    cases known : state.path with
    | none =>
        rw [parse_unknown state known plain]
        simp [DiffState.changed, DiffState.told, known]
    | some path =>
        rw [parse_changed state side known plain (positive (by rw [known]; nofun))]
        simp [DiffState.changed, DiffState.told, known]
  rw [DiffHunk.marked, List.foldlM_append, changed]
  exact parse_unended _ lines flag

/-- A number below one is noticed at the first changed line. -/
theorem positive_of_marked {side : DiffSide} {lines : List (List Char)} {flag : Bool}
    {next : DiffState} (plain : ∀ text ∈ lines, side.Plain text)
    (parsed : (DiffHunk.marked side lines flag).foldlM DiffState.parseLine state = .ok next) :
    state.path ≠ none → lines ≠ [] → 1 ≤ state.line side := by
  intro known nonempty
  cases lines with
  | nil => exact absurd rfl nonempty
  | cons text lines =>
      rw [DiffHunk.marked, List.map_cons, List.cons_append, List.foldlM_cons] at parsed
      obtain ⟨middle, first, _⟩ := Except.bind_eq_ok.mp parsed
      rcases parseLine_changed_cases (plain text List.mem_cons_self) first with
        ⟨unknown, _⟩ | ⟨_, _, positive, _⟩
      · exact absurd unknown known
      · exact positive

end Runs

section Hunks

variable (state : DiffState)

def DiffState.entered (hunk : DiffHunk) : DiffState :=
  { state with oldLine := hunk.oldStart, newLine := hunk.newStart }.passed hunk.further

def DiffState.left (hunk : DiffHunk) : DiffState :=
  ((state.entered hunk).changed .parent hunk.removed).changed .revision hunk.added

theorem parse_header {hunk : DiffHunk} (silent : ∀ raw ∈ hunk.further, emits raw = false) :
    (splitlinesFrom [] (hunk.header ++ ['\n'])).foldlM DiffState.parseLine state =
      .ok (state.entered hunk) := by
  obtain ⟨heading, lines⟩ := splitlines_header hunk
  rw [lines, List.foldlM_cons, parseLine_ranges state hunk heading]
  exact parse_silent _ silent

/-- A hunk that is read at all is read as its changed lines, where there is a path. -/
theorem parse_hunk_eq {hunk : DiffHunk} {next : DiffState} (plain : hunk.Plain)
    (silent : ∀ raw ∈ hunk.further, emits raw = false)
    (parsed : hunk.readLines.foldlM DiffState.parseLine state = .ok next) :
    next = state.left hunk := by
  rw [DiffHunk.readLines, List.foldlM_append, parse_header state silent,
    Except.ok_bind, List.foldlM_append] at parsed
  obtain ⟨middle, removed, added⟩ := Except.bind_eq_ok.mp parsed
  have first := positive_of_marked _ plain.1 removed
  rw [parse_marked _ plain.1 first] at removed
  cases removed
  have second := positive_of_marked _ plain.2 added
  rw [parse_marked _ plain.2 second] at added
  cases added
  rfl

/-- A legible hunk is read, when there is a path. -/
theorem parse_hunk {hunk : DiffHunk} (legible : hunk.Legible) :
    hunk.readLines.foldlM DiffState.parseLine state = .ok (state.left hunk) := by
  have removed : hunk.removed ≠ [] → 1 ≤ (state.entered hunk).line .parent := by
    intro nonempty
    have number := legible.numbers .parent nonempty
    exact Nat.le_trans (hunk.oldNumbered nonempty) (Nat.le_of_eq number.symm)
  have added : hunk.added ≠ [] →
      1 ≤ ((state.entered hunk).changed .parent hunk.removed).line .revision := by
    intro nonempty
    have number := legible.numbers .revision nonempty
    exact Nat.le_trans (hunk.newNumbered nonempty) (Nat.le_of_eq number.symm)
  rw [DiffHunk.readLines, List.foldlM_append, parse_header state legible.silent,
    Except.ok_bind, List.foldlM_append, parse_marked _ legible.plain.1 fun _ => removed,
    Except.ok_bind, parse_marked _ legible.plain.2 fun _ => added]
  rfl

end Hunks

section Told

/-- The path that is read at the first changed line of a hunk. -/
def DiffHunk.pathRead (hunk : DiffHunk) (oldPath newPath : Option (List Char)) :
    Option (List Char) :=
  DiffState.path
    { oldPath := pathAfter .parent oldPath hunk.further
      newPath := pathAfter .revision newPath hunk.further }

/-- The changed lines that are read of a hunk. -/
def DiffHunk.told (hunk : DiffHunk) (oldPath newPath : Option (List Char)) :
    List ChangedLine :=
  match hunk.pathRead oldPath newPath with
  | none => []
  | some path =>
      numbered .parent path (numberAfter .parent hunk.oldStart hunk.further) hunk.removed ++
        numbered .revision path (numberAfter .revision hunk.newStart hunk.further) hunk.added

def toldHunks :
    Option (List Char) → Option (List Char) → List DiffHunk → List ChangedLine
  | _, _, [] => []
  | oldPath, newPath, hunk :: hunks =>
      hunk.told oldPath newPath ++
        toldHunks (pathAfter .parent oldPath hunk.further)
          (pathAfter .revision newPath hunk.further) hunks

def FileSection.told (file : FileSection) : List ChangedLine :=
  toldHunks (file.named .parent) (file.named .revision) file.hunks

variable (state : DiffState)

theorem left_result (hunk : DiffHunk) :
    (state.left hunk).result = state.result ++ hunk.told state.oldPath state.newPath := by
  let removed := (state.entered hunk).changed .parent hunk.removed
  have first : (state.entered hunk).path = hunk.pathRead state.oldPath state.newPath := rfl
  have second : removed.path = hunk.pathRead state.oldPath state.newPath := rfl
  have joined : (state.left hunk).result = state.result ++
      (state.entered hunk).told .parent hunk.removed ++
        removed.told .revision hunk.added := by
    simp [DiffState.left, DiffState.changed, removed, DiffState.entered, DiffState.passed]
  rw [joined, DiffState.told, DiffState.told, first, second, DiffHunk.told]
  cases hunk.pathRead state.oldPath state.newPath with
  | none => simp
  | some path =>
      rw [List.append_assoc]
      rfl

theorem parse_hunks_result {hunks : List DiffHunk} {next : DiffState}
    (plain : ∀ hunk ∈ hunks, hunk.Plain)
    (silent : ∀ hunk ∈ hunks, ∀ raw ∈ hunk.further, emits raw = false)
    (parsed : (hunks.flatMap DiffHunk.readLines).foldlM DiffState.parseLine state = .ok next) :
    next.result = state.result ++ toldHunks state.oldPath state.newPath hunks := by
  induction hunks generalizing state with
  | nil =>
      cases parsed
      exact (List.append_nil _).symm
  | cons hunk hunks inductionHypothesis =>
      rw [List.flatMap_cons, List.foldlM_append] at parsed
      obtain ⟨middle, first, others⟩ := Except.bind_eq_ok.mp parsed
      obtain rfl := parse_hunk_eq state (plain hunk List.mem_cons_self)
        (silent hunk List.mem_cons_self) first
      have rest := inductionHypothesis (state.left hunk)
        (fun other member => plain other (List.mem_cons_of_mem hunk member))
        (fun other member => silent other (List.mem_cons_of_mem hunk member)) others
      rw [rest, left_result, List.append_assoc]
      rfl

theorem parse_hunks {hunks : List DiffHunk} (legible : ∀ hunk ∈ hunks, hunk.Legible) :
    ∃ next, (hunks.flatMap DiffHunk.readLines).foldlM DiffState.parseLine state =
      .ok next := by
  induction hunks generalizing state with
  | nil => exact ⟨state, rfl⟩
  | cons hunk hunks inductionHypothesis =>
      obtain ⟨next, others⟩ := inductionHypothesis (state.left hunk)
        fun other member => legible other (List.mem_cons_of_mem hunk member)
      refine ⟨next, ?_⟩
      rw [List.flatMap_cons, List.foldlM_append,
        parse_hunk state (legible hunk List.mem_cons_self)]
      exact others

/-- The lines git writes before the sides of a file are passed over. -/
theorem parse_extended {lines : List (List Char)}
    (worded : ∀ line ∈ lines, ∃ char ∈ line.head?, char.isAlpha = true) :
    lines.foldlM DiffState.parseLine state = .ok state := by
  induction lines with
  | nil => rfl
  | cons line lines inductionHypothesis =>
      obtain ⟨char, first, alpha⟩ := worded line List.mem_cons_self
      obtain ⟨text, rfl⟩ : ∃ text, line = char :: text :=
        List.head?_eq_some_iff.mp first
      have unmarked : char ≠ '-' ∧ char ≠ '+' ∧ char ≠ '@' ∧ char ≠ ' ' := by
        refine ⟨?_, ?_, ?_, ?_⟩ <;> rintro rfl <;> simp at alpha
      rw [List.foldlM_cons, parseLine_unmarked state text unmarked]
      exact inductionHypothesis fun other member =>
        worded other (List.mem_cons_of_mem _ member)

theorem hinted_ne_nil (path : PlainPath) : FileSection.hinted path.chars ≠ [] := by
  unfold FileSection.hinted
  split
  · simp
  · exact path.nonempty

/-- The path after the sides of a file. -/
theorem path_of_sides (file : FileSection) (state : DiffState) :
    DiffState.path
        { state with oldPath := file.named .parent, newPath := file.named .revision } =
      some (FileSection.hinted file.path) := by
  unfold DiffState.path FileSection.path FileSection.named
  cases new : file.newPath with
  | some path =>
      cases hinted : FileSection.hinted path.chars with
      | nil => exact absurd hinted (hinted_ne_nil path)
      | cons char rest => simp [hinted]
  | none =>
      cases old : file.oldPath with
      | some path => simp [hinted_ne_nil path]
      | none =>
          have present := file.present
          rw [old, new] at present
          simp at present

/-- The lines before the hunks name the paths. -/
theorem parse_preamble (file : FileSection) :
    file.preamble.foldlM DiffState.parseLine state =
      .ok
        (if file.hunks = [] then state
        else { state with oldPath := file.named .parent, newPath := file.named .revision }) := by
  have named : ∀ rest, state.parseLine ("diff --git a/".toList ++ rest) = .ok state := by
    intro rest
    have head : "diff --git a/".toList ++ rest =
        'd' :: ("iff --git a/".toList ++ rest) := by simp
    rw [head]
    exact parseLine_unmarked state _ (by decide)
  have extended := parse_extended state fun line member => (file.worded line member).1
  rw [FileSection.preamble, List.foldlM_cons, List.append_assoc, List.append_assoc, named,
    Except.ok_bind, List.foldlM_append, extended, Except.ok_bind]
  by_cases none : file.hunks = []
  · rw [if_pos none, if_pos none]
    rfl
  · rw [if_neg none, if_neg none, List.foldlM_cons, parseLine_oldSide, Except.ok_bind,
      List.foldlM_cons, parseLine_newSide, Except.ok_bind]
    rfl

/-- A section that is read at all is read as its changed lines, where there is a path. -/
theorem parse_section_result {file : FileSection} {next : DiffState}
    (plain : ∀ hunk ∈ file.hunks, hunk.Plain)
    (silent : ∀ hunk ∈ file.hunks, ∀ raw ∈ hunk.further, emits raw = false)
    (parsed : file.readLines.foldlM DiffState.parseLine state = .ok next) :
    next.result = state.result ++ file.told := by
  rw [FileSection.readLines, List.foldlM_append, parse_preamble, Except.ok_bind] at parsed
  have result := parse_hunks_result _ plain silent parsed
  by_cases none : file.hunks = []
  · rw [if_pos none, none] at result
    rw [FileSection.told, none]
    exact result
  · rw [if_neg none] at result
    exact result

theorem parse_sections_result {sections : List FileSection} {next : DiffState}
    (plain : ∀ file ∈ sections, ∀ hunk ∈ file.hunks, hunk.Plain)
    (silent : ∀ file ∈ sections, ∀ hunk ∈ file.hunks, ∀ raw ∈ hunk.further,
      emits raw = false)
    (parsed : (sections.flatMap FileSection.readLines).foldlM DiffState.parseLine state =
      .ok next) :
    next.result = state.result ++ sections.flatMap FileSection.told := by
  induction sections generalizing state with
  | nil =>
      cases parsed
      exact (List.append_nil _).symm
  | cons file sections inductionHypothesis =>
      rw [List.flatMap_cons, List.foldlM_append] at parsed
      obtain ⟨middle, first, others⟩ := Except.bind_eq_ok.mp parsed
      have result := parse_section_result state (plain file List.mem_cons_self)
        (silent file List.mem_cons_self) first
      have rest := inductionHypothesis middle
        (fun other member => plain other (List.mem_cons_of_mem file member))
        (fun other member => silent other (List.mem_cons_of_mem file member)) others
      rw [rest, result, List.append_assoc, List.flatMap_cons]

theorem parse_sections {sections : List FileSection}
    (legible : ∀ file ∈ sections, ∀ hunk ∈ file.hunks, hunk.Legible) :
    ∃ next, (sections.flatMap FileSection.readLines).foldlM DiffState.parseLine state =
      .ok next := by
  induction sections generalizing state with
  | nil => exact ⟨state, rfl⟩
  | cons file sections inductionHypothesis =>
      obtain ⟨middle, first⟩ := parse_hunks
        (if file.hunks = [] then state
        else { state with oldPath := file.named .parent, newPath := file.named .revision })
        (legible file List.mem_cons_self)
      obtain ⟨next, others⟩ := inductionHypothesis middle
        fun other member => legible other (List.mem_cons_of_mem file member)
      refine ⟨next, ?_⟩
      rw [List.flatMap_cons, List.foldlM_append, FileSection.readLines, List.foldlM_append,
        parse_preamble, Except.ok_bind, first]
      exact others

end Told

section Exact

theorem length_numbered (side : DiffSide) (path : List Char) (start : Nat)
    (lines : List (List Char)) :
    (DiffHunk.numbered side path start lines).length = lines.length := by
  simp [DiffHunk.numbered]

/-- Numbered lines tell their path and their first number. -/
theorem numbered_eq_iff {side : DiffSide} {first second : List Char} {start other : Nat}
    {lines : List (List Char)} :
    DiffHunk.numbered side first start lines = DiffHunk.numbered side second other lines ↔
      lines = [] ∨ (first = second ∧ start = other) := by
  constructor
  · intro same
    cases lines with
    | nil => exact .inl rfl
    | cons text lines =>
        rw [DiffHunk.numbered, DiffHunk.numbered, List.mapIdx_cons, List.mapIdx_cons] at same
        have head := (List.cons.inj same).1
        simp only [ChangedLine.mk.injEq, Nat.add_zero, true_and, and_true] at head
        exact .inr ⟨String.ofList_injective head.1, head.2⟩
  · rintro (rfl | ⟨rfl, rfl⟩)
    · rfl
    · rfl

theorem length_entries (path : List Char) (hunk : DiffHunk) :
    (hunk.entries path).length = hunk.removed.length + hunk.added.length := by
  simp [DiffHunk.entries, length_numbered]

theorem entries_text (path : List Char) {hunk : DiffHunk} {side : DiffSide}
    {text : List Char} (member : text ∈ hunk.changed side) :
    ∃ entry ∈ hunk.entries path, entry.side = side ∧ entry.text.toList = text := by
  obtain ⟨index, inside, rfl⟩ := List.mem_iff_getElem.mp member
  have listed : ∀ start, ∃ entry ∈ DiffHunk.numbered side path start (hunk.changed side),
      entry.side = side ∧ entry.text.toList = (hunk.changed side)[index] :=
    fun start =>
      ⟨_, List.mem_mapIdx.mpr ⟨index, inside, rfl⟩, rfl, String.toList_ofList⟩
  obtain ⟨entry, within, same⟩ := listed (hunk.start side)
  refine ⟨entry, ?_, same⟩
  cases side with
  | parent => exact List.mem_append_left _ within
  | revision => exact List.mem_append_right _ within

/-- A hunk is read exactly when the path and the numbers of its sides are right. -/
theorem told_eq_iff {hunk : DiffHunk} {path : List Char}
    {oldPath newPath : Option (List Char)} :
    hunk.told oldPath newPath = hunk.entries path ↔
      hunk.pathRead oldPath newPath = some path ∧
        ∀ side, hunk.changed side ≠ [] →
          numberAfter side (hunk.start side) hunk.further = hunk.start side := by
  unfold DiffHunk.told
  cases hunk.pathRead oldPath newPath with
  | none =>
      have some_ : (hunk.entries path).length ≠ 0 := by
        rw [length_entries, ← List.length_append]
        exact fun none => hunk.changes (List.eq_nil_of_length_eq_zero none)
      constructor
      · intro same
        rw [← same] at some_
        exact absurd rfl some_
      · rintro ⟨known, _⟩
        cases known
  | some read_ =>
      have apart : ∀ {first second third fourth : List ChangedLine},
          first.length = third.length →
            (first ++ second = third ++ fourth ↔ first = third ∧ second = fourth) :=
        fun lengths => ⟨fun same => List.append_inj same lengths,
          fun ⟨front, back⟩ => by rw [front, back]⟩
      rw [DiffHunk.entries, apart (by rw [length_numbered, length_numbered]),
        numbered_eq_iff, numbered_eq_iff]
      constructor
      · rintro ⟨removed, added⟩
        refine ⟨?_, ?_⟩
        · rcases removed with none | ⟨rfl, _⟩
          · rcases added with noneAdded | ⟨rfl, _⟩
            · exact absurd (by rw [none, noneAdded]; rfl) hunk.changes
            · rfl
          · rfl
        · intro side nonempty
          cases side with
          | parent => exact (removed.resolve_left nonempty).2
          | revision => exact (added.resolve_left nonempty).2
      · rintro ⟨known, numbers⟩
        cases known
        exact
          ⟨or_iff_not_imp_left.mpr fun nonempty => ⟨rfl, numbers .parent nonempty⟩,
            or_iff_not_imp_left.mpr fun nonempty => ⟨rfl, numbers .revision nonempty⟩⟩

theorem length_told_le (hunk : DiffHunk) (oldPath newPath : Option (List Char))
    (path : List Char) :
    (hunk.told oldPath newPath).length ≤ (hunk.entries path).length := by
  unfold DiffHunk.told
  cases hunk.pathRead oldPath newPath with
  | none => exact Nat.zero_le _
  | some read_ => simp [DiffHunk.entries, length_numbered]

theorem length_toldHunks_le (hunks : List DiffHunk) (oldPath newPath : Option (List Char))
    (path : List Char) :
    (toldHunks oldPath newPath hunks).length ≤
      (hunks.flatMap (DiffHunk.entries path)).length := by
  induction hunks generalizing oldPath newPath with
  | nil => exact Nat.le_refl _
  | cons hunk hunks inductionHypothesis =>
      rw [toldHunks, List.flatMap_cons, List.length_append, List.length_append]
      exact
        Nat.add_le_add (length_told_le hunk oldPath newPath path) (inductionHypothesis _ _)

/-- Two joined lists whose parts are not longer than those of two others are equal to them
when the parts are. -/
theorem append_eq_iff_of_length_le {Value : Type} {first second third fourth : List Value}
    (front : first.length ≤ third.length) (back : second.length ≤ fourth.length) :
    first ++ second = third ++ fourth ↔ first = third ∧ second = fourth := by
  constructor
  · intro same
    have lengths := congrArg List.length same
    rw [List.length_append, List.length_append] at lengths
    exact List.append_inj same (by omega)
  · rintro ⟨rfl, rfl⟩
    rfl

/-- The hunks of a section are read exactly when every path and every number is right. -/
theorem toldHunks_eq_iff {hunks : List DiffHunk} {oldPath newPath : Option (List Char)}
    {path : List Char} :
    toldHunks oldPath newPath hunks = hunks.flatMap (DiffHunk.entries path) ↔
      PathKept path oldPath newPath hunks ∧
        ∀ hunk ∈ hunks, ∀ side, hunk.changed side ≠ [] →
          numberAfter side (hunk.start side) hunk.further = hunk.start side := by
  induction hunks generalizing oldPath newPath with
  | nil => simp [toldHunks, PathKept]
  | cons hunk hunks inductionHypothesis =>
      rw [toldHunks, List.flatMap_cons,
        append_eq_iff_of_length_le (length_told_le hunk oldPath newPath path)
          (length_toldHunks_le hunks _ _ path),
        told_eq_iff, inductionHypothesis, PathKept, List.forall_mem_cons]
      constructor
      · rintro ⟨⟨known, first⟩, kept, others⟩
        exact ⟨⟨known, kept⟩, first, others⟩
      · rintro ⟨⟨known, kept⟩, first, others⟩
        exact ⟨⟨known, first⟩, kept, others⟩

/-- The sections of a diff are read exactly when each of them is. -/
theorem flatMap_told_eq_iff {sections : List FileSection} :
    sections.flatMap FileSection.told = sections.flatMap FileSection.entries ↔
      ∀ file ∈ sections, file.told = file.entries := by
  have shorter (file : FileSection) : file.told.length ≤ file.entries.length :=
    length_toldHunks_le file.hunks _ _ file.path
  have others (sections : List FileSection) :
      (sections.flatMap FileSection.told).length ≤
        (sections.flatMap FileSection.entries).length := by
    induction sections with
    | nil => exact Nat.le_refl _
    | cons file sections inductionHypothesis =>
        rw [List.flatMap_cons, List.flatMap_cons, List.length_append, List.length_append]
        exact Nat.add_le_add (shorter file) inductionHypothesis
  induction sections with
  | nil => simp
  | cons file sections inductionHypothesis =>
      rw [List.flatMap_cons, List.flatMap_cons,
        append_eq_iff_of_length_le (shorter file) (others sections), List.forall_mem_cons]
      exact and_congr_right fun _ => inductionHypothesis

end Exact

section Counts

variable {state next : DiffState}

/-- A line that is read as a changed line names no path. -/
theorem namesPath_of_emits {raw : List Char} (emitted : emits raw = true) :
    namesPath raw = false := by
  obtain ⟨side, text, rfl, plain⟩ := emits_iff.mp emitted
  cases side with
  | parent =>
      have marks : ['-', '-'].isPrefixOf text = false := plain
      have path := not_isPrefixOf_of_marks marks
      have other : namedPath .revision ('-' :: text) = none :=
        namedPath_of_head .revision (by decide) text
      have own : namedPath .parent ('-' :: text) = none := by
        simp [namedPath, startsWith, path]
      rw [namesPath, DiffSide.mark, own, other]
      rfl
  | revision =>
      have marks : ['+', '+'].isPrefixOf text = false := plain
      have path := not_isPrefixOf_of_marks marks
      have other : namedPath .parent ('+' :: text) = none :=
        namedPath_of_head .parent (by decide) text
      have own : namedPath .revision ('+' :: text) = none := by
        simp [namedPath, startsWith, path]
      rw [namesPath, DiffSide.mark, own, other]
      rfl

/-- Under a path, the lines read as changed lines are counted in the result. -/
theorem parse_length {lines : List (List Char)} {path : List Char}
    (known : state.path = some path) (unnamed : ∀ raw ∈ lines, namesPath raw = false)
    (parsed : lines.foldlM DiffState.parseLine state = .ok next) :
    next.result.length = state.result.length + lines.countP emits := by
  induction lines generalizing state with
  | nil =>
      cases parsed
      rfl
  | cons raw lines inductionHypothesis =>
      rw [List.foldlM_cons] at parsed
      obtain ⟨middle, first, others⟩ := Except.bind_eq_ok.mp parsed
      have later := fun other member => unnamed other (List.mem_cons_of_mem raw member)
      rw [List.countP_cons]
      cases emitted : emits raw with
      | false =>
          rw [parseLine_silent state emitted] at first
          cases first
          have neither := unnamed raw List.mem_cons_self
          simp only [namesPath, Bool.or_eq_false_iff, Option.isSome_eq_false_iff,
            Option.isNone_iff_eq_none] at neither
          simp only [neither.1, neither.2, Option.getD_none] at others
          have rest := fun still => inductionHypothesis still later others
          exact rest known
      | true =>
          obtain ⟨side, text, rfl, plain⟩ := emits_iff.mp emitted
          rcases parseLine_changed_cases plain first with ⟨unknown, _⟩ | ⟨_, _, _, rfl⟩
          · rw [known] at unknown
            cases unknown
          · have rest := inductionHypothesis
              (by rw [DiffState.advance_path]; exact known) later others
            rw [rest, DiffState.advance_result, List.length_append, List.length_singleton]
            simp
            omega

theorem countP_marked {side : DiffSide} {lines : List (List Char)} (flag : Bool)
    (plain : ∀ text ∈ lines, side.Plain text) :
    (DiffHunk.marked side lines flag).countP emits = lines.length := by
  have remark : (DiffHunk.unended lines flag).countP emits = 0 := by
    unfold DiffHunk.unended
    split
    · have silent : emits "\\ No newline at end of file".toList = false := by decide
      rw [List.countP_cons, silent]
      rfl
    · rfl
  rw [DiffHunk.marked, List.countP_append, remark, Nat.add_zero, List.countP_map,
    List.countP_eq_length]
  exact fun text member => emits_iff.mpr ⟨side, text, rfl, plain text member⟩

theorem emits_ranges (hunk : DiffHunk) (heading : List Char) :
    emits (hunk.ranges ++ heading) = false := by
  simp [DiffHunk.ranges, emits, startsWith]

theorem namesPath_ranges (hunk : DiffHunk) (heading : List Char) :
    namesPath (hunk.ranges ++ heading) = false := by
  have head : hunk.ranges ++ heading = '@' :: (hunk.ranges ++ heading).drop 1 := by
    simp [DiffHunk.ranges]
  rw [head, namesPath, namedPath_of_head .parent (by decide),
    namedPath_of_head .revision (by decide)]
  rfl

theorem countP_readLines {hunk : DiffHunk} (plain : hunk.Plain) :
    hunk.readLines.countP emits =
      hunk.removed.length + hunk.added.length + hunk.further.countP emits := by
  obtain ⟨heading, lines⟩ := splitlines_header hunk
  rw [DiffHunk.readLines, List.countP_append, List.countP_append, lines, List.countP_cons,
    emits_ranges, countP_marked _ plain.1, countP_marked _ plain.2]
  simp
  omega

theorem namesPath_marked {side : DiffSide} {lines : List (List Char)} {flag : Bool}
    (plain : ∀ text ∈ lines, side.Plain text) :
    ∀ raw ∈ DiffHunk.marked side lines flag, namesPath raw = false := by
  intro raw member
  rcases List.mem_append.mp member with changed | remark
  · obtain ⟨text, known, rfl⟩ := List.mem_map.mp changed
    exact namesPath_of_emits (emits_iff.mpr ⟨side, text, rfl, plain text known⟩)
  · unfold DiffHunk.unended at remark
    split at remark
    · obtain rfl := List.mem_singleton.mp remark
      decide
    · cases remark

theorem namesPath_readLines {hunk : DiffHunk} (plain : hunk.Plain)
    (unnamed : ∀ raw ∈ hunk.further, namesPath raw = false) :
    ∀ raw ∈ hunk.readLines, namesPath raw = false := by
  intro raw member
  obtain ⟨heading, lines⟩ := splitlines_header hunk
  rw [DiffHunk.readLines, lines] at member
  rcases List.mem_append.mp member with header | changed
  · rcases List.mem_cons.mp header with rfl | further
    · exact namesPath_ranges hunk heading
    · exact unnamed raw further
  · rcases List.mem_append.mp changed with removed | added
    · exact namesPath_marked plain.1 raw removed
    · exact namesPath_marked plain.2 raw added

/-- As long as no heading names a path, every changed line of a section is read, and what
its headings add. -/
theorem section_length {file : FileSection} (plain : ∀ hunk ∈ file.hunks, hunk.Plain)
    (unnamed : ∀ hunk ∈ file.hunks, ∀ raw ∈ hunk.further, namesPath raw = false)
    (parsed : file.readLines.foldlM DiffState.parseLine state = .ok next) :
    next.result.length = state.result.length +
      (file.entries.length + (file.hunks.flatMap DiffHunk.further).countP emits) := by
  have counts : ∀ hunks : List DiffHunk, (∀ hunk ∈ hunks, hunk.Plain) →
      (hunks.flatMap DiffHunk.readLines).countP emits =
        (hunks.flatMap (DiffHunk.entries file.path)).length +
          (hunks.flatMap DiffHunk.further).countP emits := by
    intro hunks each
    induction hunks with
    | nil => rfl
    | cons hunk hunks inductionHypothesis =>
        have others := inductionHypothesis fun other member =>
          each other (List.mem_cons_of_mem hunk member)
        rw [List.flatMap_cons, List.flatMap_cons, List.flatMap_cons, List.countP_append,
          List.countP_append, List.length_append, others,
          countP_readLines (each hunk List.mem_cons_self), length_entries]
        omega
  rw [FileSection.readLines, List.foldlM_append, parse_preamble, Except.ok_bind] at parsed
  by_cases none : file.hunks = []
  · rw [if_pos none, none] at parsed
    cases parsed
    simp [FileSection.entries, none]
  · rw [if_neg none] at parsed
    have all : ∀ raw ∈ file.hunks.flatMap DiffHunk.readLines, namesPath raw = false := by
      intro raw member
      obtain ⟨hunk, known, within⟩ := List.mem_flatMap.mp member
      exact namesPath_readLines (plain hunk known) (unnamed hunk known) raw within
    rw [parse_length (path_of_sides file state) all parsed, counts file.hunks plain]
    rfl

theorem sections_length {sections : List FileSection}
    (plain : ∀ file ∈ sections, ∀ hunk ∈ file.hunks, hunk.Plain)
    (unnamed : ∀ file ∈ sections, ∀ hunk ∈ file.hunks, ∀ raw ∈ hunk.further,
      namesPath raw = false)
    (parsed : (sections.flatMap FileSection.readLines).foldlM DiffState.parseLine state =
      .ok next) :
    next.result.length = state.result.length +
      ((sections.flatMap FileSection.entries).length +
        (furtherLines sections).countP emits) := by
  induction sections generalizing state with
  | nil =>
      cases parsed
      rfl
  | cons file sections inductionHypothesis =>
      rw [List.flatMap_cons, List.foldlM_append] at parsed
      obtain ⟨middle, first, others⟩ := Except.bind_eq_ok.mp parsed
      have here := section_length (plain file List.mem_cons_self)
        (unnamed file List.mem_cons_self) first
      have rest := inductionHypothesis
        (fun other member => plain other (List.mem_cons_of_mem file member))
        (fun other member => unnamed other (List.mem_cons_of_mem file member)) others
      rw [furtherLines] at rest
      rw [rest, here, furtherLines, List.flatMap_cons, List.flatMap_cons,
        List.length_append, List.countP_append]
      omega

end Counts

/-- A diff that is read exactly has unbroken changed lines that do not look like header
lines. -/
theorem plain_of_exact {sections : List FileSection}
    (parsed : parseChangedLines (renderDiff sections) =
      .ok (sections.flatMap FileSection.entries)) :
    ∀ file ∈ sections, ∀ hunk ∈ file.hunks,
      hunk.Plain ∧ ∀ text ∈ hunk.removed ++ hunk.added, Unbroken text := by
  intro file known hunk member
  have each : ∀ side, ∀ text ∈ hunk.changed side, Unbroken text ∧ side.Plain text := by
    intro side text changed
    obtain ⟨entry, within, rfl, rfl⟩ := entries_text file.path changed
    exact
      parse_texts parsed entry
        (List.mem_flatMap.mpr ⟨file, known, List.mem_flatMap.mpr ⟨hunk, member, within⟩⟩)
  refine
    ⟨⟨fun text removed => (each .parent text removed).2,
      fun text added => (each .revision text added).2⟩, ?_⟩
  intro text changed
  rcases List.mem_append.mp changed with removed | added
  · exact (each .parent text removed).1
  · exact (each .revision text added).1

/-- The changed lines of a diff are read exactly when every section is legible, unless
headings add changed lines and name other paths. -/
theorem parseChangedLines_exact_iff (sections : List FileSection) :
    ((∀ file ∈ sections, file.Legible) →
      parseChangedLines (renderDiff sections) =
        .ok (sections.flatMap FileSection.entries)) ∧
    (parseChangedLines (renderDiff sections) =
        .ok (sections.flatMap FileSection.entries) →
      (∀ file ∈ sections, file.Legible) ∨ Entangled sections) := by
  constructor
  · intro legible
    have each : ∀ file ∈ sections, ∀ hunk ∈ file.hunks, hunk.Legible :=
      fun file known => (legible file known).hunks
    obtain ⟨next, folded⟩ := parse_sections {} each
    have result := parse_sections_result {}
      (fun file known hunk member => (each file known hunk member).plain)
      (fun file known hunk member => (each file known hunk member).silent) folded
    have told : ∀ file ∈ sections, file.told = file.entries := fun file known =>
      toldHunks_eq_iff.mpr
        ⟨(legible file known).path, fun hunk member => (each file known hunk member).numbers⟩
    rw [parseChangedLines,
      splitlines_renderDiff fun file known hunk member => (each file known hunk member).unbroken,
      folded, Except.ok_bind, result, flatMap_told_eq_iff.mpr told]
    rfl
  · intro parsed
    have plain := plain_of_exact parsed
    have folds := parsed
    rw [parseChangedLines,
      splitlines_renderDiff fun file known hunk member => (plain file known hunk member).2]
      at folds
    obtain ⟨state, folded, returned⟩ := Except.bind_eq_ok.mp folds
    have result : state.result = sections.flatMap FileSection.entries :=
      Except.ok.inj returned
    have within : ∀ file ∈ sections, ∀ hunk ∈ file.hunks, ∀ raw ∈ hunk.further,
        raw ∈ furtherLines sections :=
      fun file known hunk member raw inside =>
        List.mem_flatMap.mpr ⟨file, known, List.mem_flatMap.mpr ⟨hunk, member, inside⟩⟩
    by_cases silent : ∀ raw ∈ furtherLines sections, emits raw = false
    · left
      have told := parse_sections_result {}
        (fun file known hunk member => (plain file known hunk member).1)
        (fun file known hunk member raw inside =>
          silent raw (within file known hunk member raw inside)) folded
      rw [result] at told
      have each := flatMap_told_eq_iff.mp told.symm
      intro file known
      have kept := toldHunks_eq_iff.mp (each file known)
      exact
        { hunks := fun hunk member =>
            { plain := (plain file known hunk member).1
              unbroken := (plain file known hunk member).2
              silent := fun raw inside => silent raw (within file known hunk member raw inside)
              numbers := kept.2 hunk member }
          path := kept.1 }
    · right
      push Not at silent
      obtain ⟨added, inside, emitted⟩ := silent
      refine ⟨⟨added, inside, by simpa using emitted⟩, ?_⟩
      by_contra nameless
      push Not at nameless
      -- Without another path, what the headings add makes the result too long.
      have length := sections_length
        (fun file known hunk member => (plain file known hunk member).1)
        (fun file known hunk member raw further => by
          simpa using nameless raw (within file known hunk member raw further)) folded
      rw [result] at length
      have none : (furtherLines sections).countP emits = 0 := by
        simpa using length
      rw [List.countP_eq_zero] at none
      exact none added inside (by simpa using emitted)

theorem hinted_eq_iff {path : List Char} :
    FileSection.hinted path = path ↔ ' ' ∉ path := by
  unfold FileSection.hinted
  split <;> simp_all

/-- Without further lines of headings, the paths in the header are read at every hunk. -/
theorem pathKept_iff {hunks : List DiffHunk} (whole : ∀ hunk ∈ hunks, hunk.further = [])
    {oldPath newPath : Option (List Char)} {path : List Char} :
    PathKept path oldPath newPath hunks ↔
      hunks = [] ∨ DiffState.path { oldPath, newPath } = some path := by
  induction hunks with
  | nil => simp [PathKept]
  | cons hunk hunks inductionHypothesis =>
      have others := inductionHypothesis fun other member =>
        whole other (List.mem_cons_of_mem hunk member)
      have none := whole hunk List.mem_cons_self
      simp only [PathKept, none, pathAfter, List.foldl_nil, others]
      constructor
      · exact fun kept => .inr kept.1
      · rintro (absent | known)
        · cases absent
        · exact ⟨known, .inr known⟩

/-- When no heading is broken, a section is legible when its path has no space and its
changed lines are plain and unbroken. -/
theorem FileSection.legible_iff {file : FileSection}
    (whole : ∀ hunk ∈ file.hunks, Unbroken hunk.heading) :
    file.Legible ↔
      file.hunks = [] ∨
        (' ' ∉ file.path ∧ ∀ hunk ∈ file.hunks, hunk.Plain ∧
          ∀ text ∈ hunk.removed ++ hunk.added, Unbroken text) := by
  have none : ∀ hunk ∈ file.hunks, hunk.further = [] := by
    intro hunk member
    rw [DiffHunk.further, splitlinesFrom_line (whole hunk member)]
    rfl
  have sides : DiffState.path { oldPath := file.named .parent, newPath := file.named .revision } =
      some (hinted file.path) := path_of_sides file {}
  have path : PathKept file.path (file.named .parent) (file.named .revision) file.hunks ↔
      file.hunks = [] ∨ ' ' ∉ file.path := by
    rw [pathKept_iff none, sides, Option.some.injEq, hinted_eq_iff]
  constructor
  · intro legible
    exact (path.mp legible.path).imp_right fun spaceless =>
      ⟨spaceless, fun hunk member =>
        ⟨(legible.hunks hunk member).plain, (legible.hunks hunk member).unbroken⟩⟩
  · intro readable
    refine ⟨?_, path.mpr (readable.imp_right And.left)⟩
    intro hunk member
    rcases readable with empty | ⟨_, each⟩
    · rw [empty] at member
      cases member
    · exact
        { plain := (each hunk member).1
          unbroken := (each hunk member).2
          silent := by
            rw [none hunk member]
            intro raw further
            cases further
          numbers := by
            rw [none hunk member]
            exact fun _ _ => rfl }

def oneAdded (path text heading : List Char)
    (plain : path ≠ [] ∧ ∀ char ∈ path, 32 ≤ char.toNat ∧ char.toNat ≠ 127 ∧
      char ≠ '"' ∧ char ≠ '\\' ∧ isLineBreak char = false)
    (single : '\n' ∉ text ∧ '\n' ∉ heading) : FileSection where
  oldPath := some { chars := path, nonempty := plain.1, plain := plain.2 }
  newPath := some { chars := path, nonempty := plain.1, plain := plain.2 }
  hunks :=
    [{ oldStart := 4, newStart := 5, removed := [], added := [text], heading
       changes := by simp
       oldNumbered := fun some => absurd rfl some
       newNumbered := fun _ => by decide
       lines := by simpa using single.1
       oneHeading := single.2 }]
  present := .inl rfl
  worded := by
    intro line member
    cases member

/-- The characters of a path, checked one by one. -/
theorem plain_of_check {path : List Char}
    (checked :
      (!path.isEmpty &&
        path.all fun char =>
          decide (32 ≤ char.toNat ∧ char.toNat ≠ 127 ∧ char ≠ '"' ∧ char ≠ '\\') &&
            !isLineBreak char) = true) :
    path ≠ [] ∧ ∀ char ∈ path, 32 ≤ char.toNat ∧ char.toNat ≠ 127 ∧ char ≠ '"' ∧
      char ≠ '\\' ∧ isLineBreak char = false := by
  simp only [Bool.and_eq_true, Bool.not_eq_true', List.isEmpty_eq_false_iff,
    List.all_eq_true, decide_eq_true_eq] at checked
  refine ⟨checked.1, ?_⟩
  intro char member
  obtain ⟨⟨printable, notDelete, notQuote, notEscape⟩, unbroken⟩ :=
    checked.2 char member
  exact ⟨printable, notDelete, notQuote, notEscape, unbroken⟩

/-- An added line `++i;` is lost, one that ends with a carriage return loses it, a path
with a space gains a tab, and a form feed in a heading starts a line of its own. -/
theorem parseChangedLines_inexact :
    let first := oneAdded "a.c".toList "++i;".toList [] (plain_of_check rfl) (by decide)
    let second := oneAdded "a.c".toList ['i', '\r'] [] (plain_of_check rfl) (by decide)
    let third := oneAdded "a b.c".toList ['i'] [] (plain_of_check rfl) (by decide)
    let fourth := oneAdded "a.c".toList ['i'] "int f(void)\x0c+evil".toList
      (plain_of_check rfl) (by decide)
    parseChangedLines (renderDiff [first]) ≠ .ok first.entries ∧
      parseChangedLines (renderDiff [second]) ≠ .ok second.entries ∧
      parseChangedLines (renderDiff [third]) ≠ .ok third.entries ∧
      parseChangedLines (renderDiff [fourth]) ≠ .ok fourth.entries := by
  decide +kernel

/-- A heading that repeats the changed line and hides it is read exactly, by chance. -/
example :
    let file := oneAdded "a.c".toList ['i'] "f\x0c+i\x0c--- /dev/null\x0c+++ /dev/null".toList
      (plain_of_check rfl) (by decide)
    parseChangedLines (renderDiff [file]) = .ok file.entries := by
  decide +kernel

end PeReview
