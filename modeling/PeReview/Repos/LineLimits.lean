import PeReview.Repos.RangeReads

/-!
# The limit of a line

When the bounded reader renders the lines of a range as its line limit says.
-/

namespace PeReview

open PeReview.Data

def numberedLines : Int → List (List UInt8) → List (Int × List UInt8)
  | _, [] => []
  | number, line :: rest => (number, line) :: numberedLines (number + 1) rest

def LineRange.has (range : LineRange) (line : Int × List UInt8) : Bool :=
  range.start ≤ line.1 && line.1 ≤ range.stop

def rangeLines (range : LineRange) (bytes : List UInt8) : List (Int × List UInt8) :=
  (numberedLines 1 (physicalLines bytes)).filter range.has

/-- The bytes are UTF-8 without a null. -/
def IsText (content : List UInt8) : Prop :=
  0 ∉ content ∧ ∃ text, encodeUtf8 text = content

/-- A line is rendered in full where it has at most so many bytes, else as a prefix and an
ellipsis with at most so many. -/
def RendersLine (maxLineBytes : Int) (content : List UInt8) (text : List Char) : Prop :=
  if content.length ≤ maxLineBytes then encodeUtf8 text = content
  else
    ∃ part, encodeUtf8 part <+: content ∧ text = part ++ ['…'] ∧
      (encodeUtf8 text).length ≤ maxLineBytes

def numberedTexts (lines : List (Int × List UInt8)) (texts : List (List Char)) :
    List String :=
  List.zipWith (fun line text => numberedText line.1 text) lines texts

/-- The lines, in order, as the text of a range. -/
def joinedLines (lines : List (Int × List UInt8)) (texts : List (List Char)) : String :=
  let parts := numberedTexts lines texts
  if parts = [] then "<empty>" else pyJoin "\n" parts

/-- Every line is rendered once, in order and with its number. -/
def RendersLines (maxLineBytes : Int) (lines : List (Int × List UInt8)) (result : String) :
    Prop :=
  ∃ texts, List.Forall₂ (fun line text => RendersLine maxLineBytes (rstripEnds line.2) text)
      lines texts ∧
    result = joinedLines lines texts

/-- A line that is not cut within its ends.  Where it is, an ellipsis is put behind it, or in
the place of its last character, which may be one. -/
def LimitKept (maxLineBytes : Int) (line : List UInt8) : Prop :=
  maxLineBytes < (rstripEnds line).length ∨ line.length ≤ maxLineBytes ∨
    maxLineBytes < (rstripEnds line).length + 3 ∧
      ∃ part, encodeUtf8 (part ++ ['…']) = rstripEnds line

section Line

variable {line content : List UInt8} {text : List Char} {maxLineBytes number : Int}

theorem rstripEnds_isPrefix (line : List UInt8) : rstripEnds line <+: line :=
  List.rdropWhile_prefix _ _

@[simp]
theorem rstripEnds_rstripEnds (line : List UInt8) :
    rstripEnds (rstripEnds line) = rstripEnds line :=
  List.rdropWhile_idempotent _ _

theorem rstripEnds_append_ends {ends : List UInt8} (allEnds : ∀ byte ∈ ends, byte = 13 ∨ byte = 10)
    (body : List UInt8) : rstripEnds (body ++ ends) = rstripEnds body := by
  induction ends using List.reverseRecOn with
  | nil => rw [List.append_nil]
  | append_singleton ends byte inductionHypothesis =>
      have last := allEnds byte (by simp)
      have dropped : (byte = 13 || byte = 10) = true := by simpa using last
      unfold rstripEnds at inductionHypothesis ⊢
      rw [← List.append_assoc, List.rdropWhile_concat, if_pos dropped]
      apply inductionHypothesis
      intro other member
      exact allEnds other (List.mem_append_left _ member)

/-- A line is its content and its ends. -/
theorem exists_ends (line : List UInt8) :
    ∃ ends, line = rstripEnds line ++ ends ∧ ∀ byte ∈ ends, byte = 13 ∨ byte = 10 := by
  refine ⟨line.rtakeWhile fun byte => byte = 13 || byte = 10, ?_, ?_⟩
  · exact List.rdropWhile_append_rtakeWhile.symm
  · intro byte member
    have ends := List.mem_rtakeWhile_imp member
    simpa using ends

/-- The text of a captured line. -/
theorem lineText_capturedLine {final : Bool} (number : Int)
    (captured : rstripEnds (line.take maxLineBytes.toNat) = content)
    (long : decide (max maxLineBytes 0 < line.length) = !final)
    (clean : 0 ∉ content) (decoded : decodeUtf8 final content = some text) :
    lineText (some maxLineBytes) (capturedLine maxLineBytes number line) =
      some (truncateInlineUtf8 (if final then text else text ++ ['…']) maxLineBytes) := by
  unfold lineText capturedLine
  dsimp only
  rw [captured, long, Bool.not_not]
  have same : rstripEnds content = content := by
    rw [← captured, rstripEnds_rstripEnds]
  rw [same, if_neg clean, decoded]
  cases final <;> rfl

theorem length_ellipsis : (encodeUtf8 ['…']).length = 3 := by
  decide

theorem length_with_ellipsis (text : List Char) :
    (encodeUtf8 (text ++ ['…'])).length = (encodeUtf8 text).length + 3 := by
  rw [encodeUtf8_append, List.length_append, length_ellipsis]

/-- A line that fits with its ends is rendered in full. -/
theorem lineText_whole (number : Int) (valid : IsText (rstripEnds line)) (enough : 3 ≤ maxLineBytes)
    (fits : line.length ≤ maxLineBytes) :
    ∃ text, lineText (some maxLineBytes) (capturedLine maxLineBytes number line) = some text ∧
      encodeUtf8 text = rstripEnds line := by
  obtain ⟨clean, text, encoded⟩ := valid
  have all : line.take maxLineBytes.toNat = line := List.take_of_length_le (by omega)
  have short : decide (max maxLineBytes 0 < line.length) = !true := by
    rw [Bool.not_true, decide_eq_false_iff_not]
    omega
  have decoded : decodeUtf8 true (rstripEnds line) = some text := by
    rw [← encoded]
    exact decodeUtf8_encode true text
  have kept : truncateInlineUtf8 text maxLineBytes = text := by
    have shorter := (rstripEnds_isPrefix line).length_le
    unfold truncateInlineUtf8
    rw [if_pos]
    rw [encoded]
    omega
  refine ⟨text, ?_, encoded⟩
  rw [lineText_capturedLine number (by rw [all]) short clean decoded, if_pos rfl, kept]

/-- A line that does not fit is rendered as a prefix and an ellipsis. -/
theorem lineText_long (number : Int) (valid : IsText (rstripEnds line)) (enough : 3 ≤ maxLineBytes)
    (long : maxLineBytes < (rstripEnds line).length) :
    ∃ part, lineText (some maxLineBytes) (capturedLine maxLineBytes number line) =
        some (part ++ ['…']) ∧
      encodeUtf8 part <+: rstripEnds line ∧
        (encodeUtf8 (part ++ ['…'])).length ≤ maxLineBytes := by
  obtain ⟨clean, text, encoded⟩ := valid
  obtain ⟨ends, whole, _⟩ := exists_ends line
  have inner : line.take maxLineBytes.toNat = (rstripEnds line).take maxLineBytes.toNat := by
    conv_lhs => rw [whole]
    exact List.take_append_of_le_length (by omega)
  obtain ⟨cut, captured⟩ :
      ∃ cut, rstripEnds ((rstripEnds line).take maxLineBytes.toNat) = cut := ⟨_, rfl⟩
  have isPrefix : cut <+: rstripEnds line := by
    rw [← captured]
    exact (rstripEnds_isPrefix _).trans (List.take_prefix _ _)
  have within := List.prefix_iff_eq_take.mp isPrefix
  have cutClean : 0 ∉ cut := fun null => clean (isPrefix.subset null)
  have longer : decide (max maxLineBytes 0 < line.length) = !false := by
    have shorter := (rstripEnds_isPrefix line).length_le
    rw [Bool.not_false, decide_eq_true_eq]
    omega
  obtain ⟨tail, fragment, characters⟩ := take_encodeUtf8 cut.length text
  have decoded : decodeUtf8 false cut = some (takeUtf8 cut.length text) := by
    rw [encoded, ← within] at characters
    conv_lhs => rw [characters]
    exact decodeUtf8_cut fragment _
  have keptPrefix := takeUtf8_isPrefix cut.length text
  have rendered := lineText_capturedLine number (by rw [inner, captured]) longer
    cutClean decoded
  rw [if_neg Bool.false_ne_true] at rendered
  generalize takeUtf8 cut.length text = kept at rendered keptPrefix
  rw [rendered]
  unfold truncateInlineUtf8
  rw [← encoded]
  by_cases fits : (encodeUtf8 (kept ++ ['…'])).length ≤ maxLineBytes
  · rw [if_pos fits]
    exact ⟨kept, rfl, encodeUtf8_isPrefix keptPrefix, fits⟩
  · rw [if_neg fits, length_ellipsis]
    refine ⟨_, rfl, encodeUtf8_isPrefix (List.IsPrefix.trans ?_ keptPrefix), ?_⟩
    · apply takeUtf8_concat_isPrefix
      omega
    · have short := length_encodeUtf8_takeUtf8_le (maxLineBytes - (3 : Nat)).toNat
        (kept ++ ['…'])
      rw [length_with_ellipsis]
      omega

/-- A line that is cut within its ends is taken to be longer than it is. -/
theorem lineText_within_ends (number : Int) (valid : IsText (rstripEnds line)) (enough : 3 ≤ maxLineBytes)
    (fits : (rstripEnds line).length ≤ maxLineBytes) (cut : maxLineBytes < line.length) :
    ∃ text, encodeUtf8 text = rstripEnds line ∧
      lineText (some maxLineBytes) (capturedLine maxLineBytes number line) =
        some (truncateInlineUtf8 (text ++ ['…']) maxLineBytes) := by
  obtain ⟨clean, text, encoded⟩ := valid
  obtain ⟨ends, whole, allEnds⟩ := exists_ends line
  have captured : rstripEnds (line.take maxLineBytes.toNat) = rstripEnds line := by
    have inner : line.take maxLineBytes.toNat = rstripEnds line ++
        ends.take (maxLineBytes.toNat - (rstripEnds line).length) := by
      conv_lhs => rw [whole]
      rw [List.take_append, List.take_of_length_le (by omega)]
    rw [inner, rstripEnds_append_ends, rstripEnds_rstripEnds]
    intro byte member
    exact allEnds byte (List.mem_of_mem_take member)
  have longer : decide (max maxLineBytes 0 < line.length) = !false := by
    rw [Bool.not_false, decide_eq_true_eq]
    omega
  have decoded : decodeUtf8 false (rstripEnds line) = some text := by
    rw [← encoded]
    exact decodeUtf8_encode false text
  refine ⟨text, encoded, ?_⟩
  rw [lineText_capturedLine number captured longer clean decoded, if_neg Bool.false_ne_true]

/-- The text of a line in a range is what the limit asks for if the line is not cut within
its ends. -/
theorem rendersLine_iff (number : Int) (valid : IsText (rstripEnds line)) (enough : 3 ≤ maxLineBytes) :
    ∃ text, lineText (some maxLineBytes) (capturedLine maxLineBytes number line) = some text ∧
      (RendersLine maxLineBytes (rstripEnds line) text ↔ LimitKept maxLineBytes line) := by
  unfold RendersLine LimitKept
  by_cases long : maxLineBytes < (rstripEnds line).length
  · obtain ⟨part, rendered, isPrefix, short⟩ :=
      lineText_long number valid enough long
    refine ⟨_, rendered, ?_⟩
    rw [if_neg (Int.not_le.mpr long)]
    exact iff_of_true ⟨part, isPrefix, rfl, short⟩ (Or.inl long)
  have fits := Int.not_lt.mp long
  by_cases whole : line.length ≤ maxLineBytes
  · obtain ⟨text, rendered, encoded⟩ := lineText_whole number valid enough whole
    refine ⟨text, rendered, ?_⟩
    rw [if_pos fits]
    exact iff_of_true encoded (Or.inr (Or.inl whole))
  · obtain ⟨text, encoded, rendered⟩ :=
      lineText_within_ends number valid enough fits (Int.not_le.mp whole)
    refine ⟨_, rendered, ?_⟩
    rw [if_pos fits, or_iff_right long, or_iff_right whole, ← encoded]
    have size := length_with_ellipsis text
    have bound : (encodeUtf8 text).length ≤ maxLineBytes := by
      rw [encoded]
      exact fits
    unfold truncateInlineUtf8
    by_cases room : (encodeUtf8 (text ++ ['…'])).length ≤ maxLineBytes
    · rw [if_pos room]
      apply iff_of_false
      · intro same
        rw [same] at size
        omega
      · intro ends
        omega
    · rw [if_neg room, length_ellipsis]
      dsimp only
      constructor
      · intro same
        exact ⟨by omega, _, same⟩
      · intro ends
        obtain ⟨_, part, same⟩ := ends
        have partText : part ++ ['…'] = text := encodeUtf8_injective same
        have partSize := length_with_ellipsis part
        have width : '…'.utf8Size = 3 := by decide
        rw [partText] at partSize
        have cut : takeUtf8 (maxLineBytes - (3 : Nat)).toNat (text ++ ['…']) = part := by
          rw [← partText, List.append_assoc]
          apply takeUtf8_append
          · omega
          · omega
        rw [cut, same]

theorem unbroken_of_encode {part : List Char} (isPrefix : encodeUtf8 part <+: content)
    (unbroken : 10 ∉ content) : '\n' ∉ part := by
  intro broken
  apply unbroken
  apply isPrefix.subset
  unfold encodeUtf8
  rw [List.mem_flatMap]
  exact ⟨'\n', broken, by decide⟩

theorem unbroken_of_encode_eq (encoded : encodeUtf8 text = content) (unbroken : 10 ∉ content) :
    '\n' ∉ text :=
  unbroken_of_encode ⟨[], by rw [List.append_nil, encoded]⟩ unbroken

theorem unbroken_ellipsis {part : List Char} (unbroken : '\n' ∉ part) :
    '\n' ∉ part ++ ['…'] := by
  rw [List.mem_append, not_or]
  exact ⟨unbroken, by decide⟩

/-- The text of a line has no line feed. -/
theorem unbroken_lineText (valid : IsText (rstripEnds line)) (enough : 3 ≤ maxLineBytes)
    (unbroken : 10 ∉ rstripEnds line)
    (rendered : lineText (some maxLineBytes) (capturedLine maxLineBytes number line) =
      some text) : '\n' ∉ text := by
  by_cases long : maxLineBytes < (rstripEnds line).length
  · obtain ⟨part, isIts, isPrefix, _⟩ := lineText_long number valid enough long
    rw [isIts, Option.some_inj] at rendered
    rw [← rendered]
    exact unbroken_ellipsis (unbroken_of_encode isPrefix unbroken)
  by_cases whole : line.length ≤ maxLineBytes
  · obtain ⟨other, isIts, encoded⟩ := lineText_whole number valid enough whole
    rw [isIts, Option.some_inj] at rendered
    rw [← rendered]
    exact unbroken_of_encode_eq encoded unbroken
  · obtain ⟨other, encoded, isIts⟩ := lineText_within_ends number valid enough
      (Int.not_lt.mp long) (Int.not_le.mp whole)
    have plain := unbroken_ellipsis (unbroken_of_encode_eq encoded unbroken)
    rw [isIts, Option.some_inj] at rendered
    rw [← rendered]
    unfold truncateInlineUtf8
    split
    · exact plain
    · apply unbroken_ellipsis
      intro broken
      exact plain ((takeUtf8_isPrefix _ _).subset broken)

theorem unbroken_of_rendersLine (unbroken : 10 ∉ content)
    (renders : RendersLine maxLineBytes content text) : '\n' ∉ text := by
  unfold RendersLine at renders
  split at renders
  · exact unbroken_of_encode_eq renders unbroken
  · obtain ⟨part, isPrefix, same, _⟩ := renders
    rw [same]
    exact unbroken_ellipsis (unbroken_of_encode isPrefix unbroken)

theorem line_shape {bytes : List UInt8} (member : line ∈ physicalLines bytes) :
    ∃ body, 10 ∉ body ∧ (line = body ∨ line = body ++ [10]) := by
  induction bytes generalizing line with
  | nil => cases member
  | cons byte rest inductionHypothesis =>
      rw [physicalLines] at member
      split at member
      · rename_i ends
        rcases List.mem_cons.mp member with isFirst | later
        · exact ⟨[], List.not_mem_nil, Or.inr (by rw [isFirst, ends]; rfl)⟩
        · exact inductionHypothesis later
      · rename_i plain
        cases listed : physicalLines rest with
        | nil =>
            rw [listed, List.mem_singleton] at member
            refine ⟨[byte], ?_, Or.inl member⟩
            exact unbroken_cons.mpr ⟨plain, List.not_mem_nil⟩
        | cons next lines =>
            rw [listed] at member inductionHypothesis
            rcases List.mem_cons.mp member with isFirst | later
            · obtain ⟨body, unbroken, shape⟩ := inductionHypothesis List.mem_cons_self
              refine ⟨byte :: body, unbroken_cons.mpr ⟨plain, unbroken⟩, ?_⟩
              rw [isFirst]
              rcases shape with open_ | ended
              · exact Or.inl (by rw [open_])
              · exact Or.inr (by rw [ended]; rfl)
            · exact inductionHypothesis (List.mem_cons_of_mem _ later)

theorem unbroken_content {bytes : List UInt8} (member : line ∈ physicalLines bytes) :
    10 ∉ rstripEnds line := by
  obtain ⟨body, unbroken, shape⟩ := line_shape member
  have within : rstripEnds line <+: body := by
    rcases shape with open_ | ended
    · rw [open_]
      exact rstripEnds_isPrefix body
    · rw [ended, rstripEnds_append_ends (by simp)]
      exact rstripEnds_isPrefix body
  intro broken
  exact unbroken (within.subset broken)

end Line

section Joining

variable {parts : List String} {lines : List (Int × List UInt8)}
  {texts others : List (List Char)}

theorem utf8ByteSize_pyJoin_concat (parts : List String) (rendered : String) :
    (pyJoin "\n" (parts ++ [rendered])).utf8ByteSize =
      (pyJoin "\n" parts).utf8ByteSize + (if parts = [] then 0 else 1) +
        rendered.utf8ByteSize := by
  unfold pyJoin
  by_cases none_ : parts = []
  · simp [none_]
  · have separator : "\n".utf8ByteSize = 1 := by decide
    rw [String.intercalate_append_of_ne_nil none_ (List.cons_ne_nil _ _),
      String.intercalate_singleton, String.utf8ByteSize_append, String.utf8ByteSize_append,
      separator, if_neg none_]

theorem utf8ByteSize_pyJoin_le (parts more : List String) :
    (pyJoin "\n" parts).utf8ByteSize ≤ (pyJoin "\n" (parts ++ more)).utf8ByteSize := by
  induction more generalizing parts with
  | nil => rw [List.append_nil]
  | cons rendered more inductionHypothesis =>
      have longer := inductionHypothesis (parts ++ [rendered])
      rw [utf8ByteSize_pyJoin_concat, List.append_assoc, List.singleton_append] at longer
      omega

theorem unbroken_number (number : Int) : '\n' ∉ (toString number).toList := by
  have natural (count : Nat) : '\n' ∉ (toString count).toList := by
    rw [Nat.toString_eq_ofList_toDigits, String.toList_ofList]
    intro broken
    have digit := Nat.isDigit_of_mem_toDigits (by decide) (by decide) broken
    revert digit
    decide
  cases number with
  | ofNat count => exact natural count
  | negSucc count =>
      have shown : toString (Int.negSucc count) = "-" ++ toString (count + 1) := rfl
      rw [shown, String.toList_append, List.mem_append, not_or]
      exact ⟨by decide, natural _⟩

theorem unbroken_numberedText {number : Int} {text : List Char} (unbroken : '\n' ∉ text) :
    '\n' ∉ (numberedText number text).toList := by
  unfold numberedText
  simp only [String.toList_append, String.toList_ofList, List.mem_append, not_or]
  exact ⟨⟨unbroken_number number, by decide⟩, unbroken⟩

/-- Texts without line feeds can be told from what they are joined to. -/
theorem pyJoin_injective {others : List String} (filled : parts ≠ []) (othersFilled : others ≠ [])
    (unbroken : ∀ part ∈ parts, '\n' ∉ part.toList)
    (othersUnbroken : ∀ part ∈ others, '\n' ∉ part.toList)
    (same : pyJoin "\n" parts = pyJoin "\n" others) : parts = others := by
  have chars := congrArg String.toList same
  have separator : "\n".toList = ['\n'] := rfl
  unfold pyJoin at chars
  rw [String.toList_intercalate, String.toList_intercalate, separator] at chars
  have splits := congrArg (List.splitOn '\n') chars
  have inverse {strings : List String} (filled : strings ≠ [])
      (unbroken : ∀ part ∈ strings, '\n' ∉ part.toList) :
      (['\n'].intercalate (strings.map String.toList)).splitOn '\n' =
        strings.map String.toList := by
    apply List.splitOn_intercalate
    · intro chars member
      obtain ⟨part, isPart, isIts⟩ := List.mem_map.mp member
      rw [← isIts]
      exact unbroken part isPart
    · simpa using filled
  rw [inverse filled unbroken, inverse othersFilled othersUnbroken] at splits
  exact List.map_injective_iff.mpr (fun _ _ => String.toList_injective) splits

end Joining

def renderedText (maxLineBytes : Int) (line : Int × List UInt8) : List Char :=
  (lineText (some maxLineBytes) (capturedLine maxLineBytes line.1 line.2)).getD []

def renderedLines (maxLineBytes : Int) (lines : List (Int × List UInt8)) : List String :=
  lines.map fun line => numberedText line.1 (renderedText maxLineBytes line)

section Rendering

variable {path : String} {maxOutputBytes maxLineBytes number : Int} {range : LineRange}
  {bytes : List UInt8} {lines : List (Int × List UInt8)} {state : RangeState}
  {texts others : List (List Char)}

theorem capturedLines_eq (captured number : Int) (lines : List (List UInt8)) :
    capturedLines captured number lines =
      (numberedLines number lines).map fun line => capturedLine captured line.1 line.2 := by
  induction lines generalizing number with
  | nil => rfl
  | cons line rest inductionHypothesis =>
      rw [capturedLines, numberedLines, List.map_cons, inductionHypothesis]

theorem mem_of_mem_numberedLines {lines : List (List UInt8)} {line : Int × List UInt8}
    (member : line ∈ numberedLines number lines) : line.2 ∈ lines := by
  induction lines generalizing number with
  | nil => cases member
  | cons first rest inductionHypothesis =>
      rw [numberedLines] at member
      rcases List.mem_cons.mp member with isFirst | later
      · rw [isFirst]
        exact List.mem_cons_self
      · exact List.mem_cons_of_mem _ (inductionHypothesis later)

theorem unbroken_of_mem_rangeLines {line : Int × List UInt8}
    (member : line ∈ rangeLines range bytes) : 10 ∉ rstripEnds line.2 :=
  unbroken_content (mem_of_mem_numberedLines (List.mem_filter.mp member).1)

theorem lineText_eq_renderedText {line : Int × List UInt8} (valid : IsText (rstripEnds line.2))
    (enough : 3 ≤ maxLineBytes) :
    lineText (some maxLineBytes) (capturedLine maxLineBytes line.1 line.2) =
      some (renderedText maxLineBytes line) := by
  obtain ⟨text, rendered, _⟩ := rendersLine_iff line.1 valid enough
  unfold renderedText
  rw [rendered, Option.getD_some]

/-- A range that has room takes its lines in order. -/
theorem foldl_renderedLines (path : String) (range : LineRange)
    (lines : List (Int × List UInt8)) (state : RangeState) (enough : 3 ≤ maxLineBytes)
    (valid : ∀ line ∈ lines.filter range.has, IsText (rstripEnds line.2))
    (open_ : state.done = false) (used : state.used = (pyJoin "\n" state.parts).utf8ByteSize)
    (room : (pyJoin "\n" (state.parts ++ renderedLines maxLineBytes
      (lines.filter range.has))).utf8ByteSize ≤ maxOutputBytes) :
    ∃ total, (lines.map fun line => capturedLine maxLineBytes line.1 line.2).foldl
        (RangeState.follow path maxOutputBytes (some maxLineBytes) range) state =
      { state with
        parts := state.parts ++ renderedLines maxLineBytes (lines.filter range.has)
        used := total } := by
  induction lines generalizing state with
  | nil =>
      refine ⟨state.used, ?_⟩
      simp [renderedLines]
  | cons line rest inductionHypothesis =>
      have place : range.has line = true ↔ range.start ≤ line.1 ∧ line.1 ≤ range.stop := by
        unfold LineRange.has
        rw [Bool.and_eq_true, decide_eq_true_eq, decide_eq_true_eq]
      rw [List.map_cons, List.foldl_cons]
      by_cases inRange : range.has line = true
      · rw [List.filter_cons_of_pos inRange] at valid room ⊢
        obtain ⟨first, later⟩ := List.forall_mem_cons.mp valid
        obtain ⟨start, stop⟩ := place.mp inRange
        have text := lineText_eq_renderedText first enough
        obtain ⟨rendered, isIts⟩ :
            ∃ rendered, numberedText line.1 (renderedText maxLineBytes line) = rendered :=
          ⟨_, rfl⟩
        have step : state.follow path maxOutputBytes (some maxLineBytes) range
            (capturedLine maxLineBytes line.1 line.2) = state.add maxOutputBytes rendered := by
          unfold RangeState.follow renderLine
          rw [text, Option.map_some, ← isIts]
          exact if_pos ⟨start, stop, open_⟩
        have grown := utf8ByteSize_pyJoin_concat state.parts rendered
        have listed : state.parts ++ renderedLines maxLineBytes (line :: rest.filter range.has) =
            state.parts ++ [rendered] ++
              renderedLines maxLineBytes (rest.filter range.has) := by
          rw [List.append_assoc, ← isIts]
          rfl
        have more := utf8ByteSize_pyJoin_le (state.parts ++ [rendered])
          (renderedLines maxLineBytes (rest.filter range.has))
        rw [listed] at room ⊢
        have added : state.add maxOutputBytes rendered =
            { state with
              parts := state.parts ++ [rendered]
              used := (pyJoin "\n" (state.parts ++ [rendered])).utf8ByteSize } := by
          unfold RangeState.add
          dsimp only
          rw [used, ← grown, if_neg]
          omega
        have next := inductionHypothesis { state with
          parts := state.parts ++ [rendered]
          used := (pyJoin "\n" (state.parts ++ [rendered])).utf8ByteSize } later open_ rfl room
        rw [step, added]
        exact next
      · rw [List.filter_cons_of_neg inRange] at valid room ⊢
        have same : state.follow path maxOutputBytes (some maxLineBytes) range
            (capturedLine maxLineBytes line.1 line.2) = state := by
          apply follow_settled
          right
          have own : (capturedLine maxLineBytes line.1 line.2).number = line.1 := rfl
          rw [place] at inRange
          omega
        rw [same]
        exact inductionHypothesis state valid open_ used room

/-- The text of a range that has room. -/
theorem rangeText_eq (enough : 3 ≤ maxLineBytes)
    (valid : ∀ line ∈ rangeLines range bytes, IsText (rstripEnds line.2))
    (room : (pyJoin "\n"
      (renderedLines maxLineBytes (rangeLines range bytes))).utf8ByteSize ≤ maxOutputBytes) :
    rangeText path maxOutputBytes (some maxLineBytes) bytes range =
      joinedLines (rangeLines range bytes)
        ((rangeLines range bytes).map (renderedText maxLineBytes)) := by
  have limit : captureBytes maxOutputBytes (some maxLineBytes) = maxLineBytes := by
    unfold captureBytes
    dsimp only
    rw [if_neg]
    omega
  obtain ⟨total, read⟩ := foldl_renderedLines path range
    (numberedLines 1 (physicalLines bytes)) {} enough valid rfl rfl room
  have zipped (lines : List (Int × List UInt8)) :
      numberedTexts lines (lines.map (renderedText maxLineBytes)) =
        renderedLines maxLineBytes lines := by
    unfold numberedTexts
    rw [List.zipWith_map_right, List.zipWith_self]
    rfl
  unfold rangeText joinedLines
  rw [limit, capturedLines_eq, read, zipped]
  rfl

theorem unbroken_numberedTexts (unbroken : ∀ text ∈ texts, '\n' ∉ text) :
    ∀ part ∈ numberedTexts lines texts, '\n' ∉ part.toList := by
  unfold numberedTexts
  induction lines generalizing texts with
  | nil => simp
  | cons line rest inductionHypothesis =>
      cases texts with
      | nil => simp
      | cons text texts =>
          obtain ⟨first, later⟩ := List.forall_mem_cons.mp unbroken
          rw [List.zipWith_cons_cons]
          exact List.forall_mem_cons.mpr
            ⟨unbroken_numberedText first, inductionHypothesis later⟩

theorem numberedText_injective {number : Int} {text other : List Char}
    (same : numberedText number text = numberedText number other) : text = other := by
  unfold numberedText at same
  have chars := congrArg String.toList same
  simpa using chars

theorem numberedTexts_injective (textsLength : lines.length = texts.length)
    (othersLength : lines.length = others.length)
    (same : numberedTexts lines texts = numberedTexts lines others) : texts = others := by
  unfold numberedTexts at same
  induction lines generalizing texts others with
  | nil =>
      rw [List.length_nil] at textsLength othersLength
      rw [List.length_eq_zero_iff.mp textsLength.symm,
        List.length_eq_zero_iff.mp othersLength.symm]
  | cons line rest inductionHypothesis =>
      cases texts with
      | nil => cases textsLength
      | cons text texts =>
          cases others with
          | nil => cases othersLength
          | cons other others =>
              rw [List.zipWith_cons_cons, List.zipWith_cons_cons, List.cons.injEq] at same
              rw [numberedText_injective same.1,
                inductionHypothesis (Nat.succ_inj.mp textsLength) (Nat.succ_inj.mp othersLength)
                  same.2]

/-- The texts of the lines can be told from what they are joined to. -/
theorem joinedLines_injective
    (textsLength : lines.length = texts.length) (othersLength : lines.length = others.length)
    (unbroken : ∀ text ∈ texts, '\n' ∉ text) (othersUnbroken : ∀ text ∈ others, '\n' ∉ text)
    (same : joinedLines lines texts = joinedLines lines others) : texts = others := by
  apply numberedTexts_injective textsLength othersLength
  have filled {texts : List (List Char)} (size : lines.length = texts.length)
      (some_ : lines ≠ []) : numberedTexts lines texts ≠ [] := by
    intro none_
    rcases List.zipWith_eq_nil_iff.mp none_ with noLines | noTexts
    · exact some_ noLines
    · rw [noTexts] at size
      exact some_ (List.length_eq_zero_iff.mp size)
  by_cases none_ : lines = []
  · rw [none_]
    rfl
  · have first := filled textsLength none_
    have second := filled othersLength none_
    unfold joinedLines at same
    dsimp only at same
    rw [if_neg first, if_neg second] at same
    exact pyJoin_injective first second (unbroken_numberedTexts unbroken)
      (unbroken_numberedTexts othersUnbroken) same

/-- The range is rendered as the limit asks for if no line of it is cut within its ends. -/
theorem rendersLines_rangeText (enough : 3 ≤ maxLineBytes)
    (valid : ∀ line ∈ rangeLines range bytes, IsText (rstripEnds line.2))
    (room : (pyJoin "\n"
      (renderedLines maxLineBytes (rangeLines range bytes))).utf8ByteSize ≤ maxOutputBytes) :
    RendersLines maxLineBytes (rangeLines range bytes)
        (rangeText path maxOutputBytes (some maxLineBytes) bytes range) ↔
      ∀ line ∈ rangeLines range bytes, LimitKept maxLineBytes line.2 := by
  have each (line : Int × List UInt8) (member : line ∈ rangeLines range bytes) :
      RendersLine maxLineBytes (rstripEnds line.2) (renderedText maxLineBytes line) ↔
        LimitKept maxLineBytes line.2 := by
    obtain ⟨text, rendered, holds⟩ :=
      rendersLine_iff line.1 (valid line member) enough
    have own := lineText_eq_renderedText (valid line member) enough
    rw [rendered, Option.some_inj] at own
    rw [← own]
    exact holds
  have own : ∀ text ∈ (rangeLines range bytes).map (renderedText maxLineBytes),
      '\n' ∉ text := by
    intro text member
    obtain ⟨line, isLine, same⟩ := List.mem_map.mp member
    rw [← same]
    exact unbroken_lineText (valid line isLine) enough (unbroken_of_mem_rangeLines isLine)
      (lineText_eq_renderedText (valid line isLine) enough)
  rw [rangeText_eq enough valid room]
  constructor
  · intro renders line member
    obtain ⟨texts, each_, same⟩ := renders
    have unbroken : ∀ text ∈ texts, '\n' ∉ text := by
      intro text isText
      obtain ⟨place, inside, isIts⟩ := List.getElem_of_mem isText
      have inLines : place < (rangeLines range bytes).length := by
        rw [each_.length_eq]
        exact inside
      have renders := each_.get inLines inside
      rw [← isIts]
      exact unbroken_of_rendersLine (unbroken_of_mem_rangeLines (List.getElem_mem inLines))
        renders
    have equal := joinedLines_injective (List.length_map _).symm each_.length_eq own unbroken same
    rw [← equal, List.forall₂_map_right_iff, List.forall₂_same] at each_
    exact (each line member).mp (each_ line member)
  · intro kept
    refine ⟨_, ?_, rfl⟩
    rw [List.forall₂_map_right_iff, List.forall₂_same]
    intro line member
    exact (each line member).mpr (kept line member)

end Rendering

/-- The bounded reader renders the lines of a range as its line limit says if no line is cut
within its ends. -/
theorem line_limit_kept_iff (bytes : List UInt8) (path : String) (ranges : List LineRange)
    (distinct : (ranges.map LineRange.key).Nodup) (range : LineRange) (member : range ∈ ranges)
    (maxOutputBytes maxLineBytes : Int) (enough : 3 ≤ maxLineBytes)
    (valid : ∀ line ∈ rangeLines range bytes, IsText (rstripEnds line.2))
    (room : (pyJoin "\n"
      (renderedLines maxLineBytes (rangeLines range bytes))).utf8ByteSize ≤ maxOutputBytes) :
    ∃ result,
      Dict.get?
          (readTextRangesBounded (.ok { bytes, failure := none }) path ranges maxOutputBytes
            (some maxLineBytes)) range.key = some result ∧
        (RendersLines maxLineBytes (rangeLines range bytes) result ↔
          ∀ line ∈ rangeLines range bytes, LimitKept maxLineBytes line.2) :=
  ⟨_, get?_readTextRangesBounded _ _ _ _ distinct member, rendersLines_rangeText enough valid room⟩

/-- A line that fits with its line feed, and one that is too long. -/
theorem line_limit_kept_short_and_long :
    ∃ result,
      Dict.get?
          (readTextRangesBounded
            (.ok { bytes := [97, 98, 10, 97, 98, 99, 100, 101, 102, 10], failure := none })
            "a.c"
            [{ key := 0, start := 1, stop := 2 }, { key := 1, start := 2, stop := 9 }] 100
            (some 4)) 0 = some result ∧
        (RendersLines 4
            (rangeLines { key := 0, start := 1, stop := 2 }
              [97, 98, 10, 97, 98, 99, 100, 101, 102, 10]) result ↔
          ∀ line ∈ rangeLines { key := 0, start := 1, stop := 2 }
            [97, 98, 10, 97, 98, 99, 100, 101, 102, 10], LimitKept 4 line.2) := by
  have listed : rangeLines { key := 0, start := 1, stop := 2 }
        [97, 98, 10, 97, 98, 99, 100, 101, 102, 10] =
      [(1, [97, 98, 10]), (2, [97, 98, 99, 100, 101, 102, 10])] := by decide
  apply line_limit_kept_iff _ _ _ (by decide) { key := 0, start := 1, stop := 2 } (by decide)
    100 4 (by decide)
  · rw [listed]
    intro line member
    rcases List.mem_cons.mp member with first | second
    · rw [first]
      exact ⟨by decide, ['a', 'b'], by decide⟩
    · rw [List.mem_singleton.mp second]
      exact ⟨by decide, ['a', 'b', 'c', 'd', 'e', 'f'], by decide⟩
  · rw [listed]
    decide

/-- A line of three bytes is not rendered within three. -/
theorem line_limit_misses_line_feed :
    readTextRangesBounded (.ok { bytes := [97, 98, 99, 10], failure := none }) "a.c"
        [{ key := 0, start := 1, stop := 1 }] 100 (some 3) = [(0, "1: …")] ∧
      rangeLines { key := 0, start := 1, stop := 1 } [97, 98, 99, 10] =
        [(1, [97, 98, 99, 10])] ∧
      (rstripEnds [97, 98, 99, 10]).length = 3 ∧
      ¬RendersLines 3 [(1, [97, 98, 99, 10])] "1: …" := by
  refine ⟨by decide, by decide, by decide, ?_⟩
  intro renders
  obtain ⟨texts, each, same⟩ := renders
  cases each with
  | cons first rest =>
      cases rest
      rename_i text
      have stripped : rstripEnds [97, 98, 99, 10] = encodeUtf8 ['a', 'b', 'c'] := by decide
      have small : ((encodeUtf8 ['a', 'b', 'c']).length : Int) ≤ 3 := by decide
      unfold RendersLine at first
      rw [stripped, if_pos small] at first
      rw [encodeUtf8_injective first] at same
      revert same
      decide

end PeReview
