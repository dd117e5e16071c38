import Mathlib.Data.List.Basic
import Mathlib.Data.List.TakeWhile
import PeReview.Gerrit.Messages
import PeReview.Gerrit.ReviewInput
import PeReview.Review.Summary

/-!
# A posted review is found

A message the worker can post begins with a heading, or it has no colon and no parenthesis
at its start, and no decoration begins so: what Gerrit puts before the message is stripped,
and nothing of the message is.
-/

namespace PeReview

open PeReview.Data

/-- A text no decoration begins with: it begins with a mark of a heading, or it has no
colon and begins with no parenthesis. -/
def Undecorated (text : List Char) : Prop :=
  ∃ first, text.head? = some first ∧ isPythonSpace first = false ∧
    (first = '#' ∨ first ≠ '(' ∧ ':' ∉ text)

/-- `(k comments)`, and a blank line. -/
def commentCount : Option Nat → List Char
  | none => []
  | some count =>
      '(' :: (Nat.toDigits 10 count ++
        (if count = 1 then " comment)\n\n" else " comments)\n\n").toList)

/-- A message as Gerrit lists it. -/
def decoratedMessage (patchset : Nat) (comments : Option Nat) (message : List Char) :
    List Char :=
  "Patch Set ".toList ++
    (Nat.toDigits 10 patchset ++ (":\n\n".toList ++ (commentCount comments ++ message)))

section Normalization

variable {word : WordClass} {text : List Char}

theorem suffix_afterLetters {letters rest : List Char}
    (read_ : afterLetters letters text = some rest) : rest <:+ text := by
  induction letters generalizing text with
  | nil =>
      cases read_
      exact List.suffix_refl _
  | cons letter letters inductionHypothesis =>
      cases text with
      | nil => cases read_
      | cons char others =>
          rw [afterLetters] at read_
          split at read_
          · exact (inductionHypothesis read_).trans (List.suffix_cons char others)
          · cases read_

theorem suffix_afterSpaces {rest : List Char} (read_ : afterSpaces text = some rest) :
    rest <:+ text := by
  cases text with
  | nil => cases read_
  | cons char others =>
      rw [afterSpaces] at read_
      split at read_
      · cases read_
        exact (List.dropWhile_suffix _).trans (List.suffix_cons char others)
      · cases read_

theorem suffix_readDigits (text : List Char) (value : Nat) :
    (readDigits text value).2 <:+ text := by
  induction text generalizing value with
  | nil => exact List.suffix_refl _
  | cons char rest inductionHypothesis =>
      rw [readDigits]
      split
      · exact List.suffix_refl _
      · exact (inductionHypothesis _).trans (List.suffix_cons char rest)

theorem suffix_readNumber {number : Nat} {rest : List Char}
    (read_ : readNumber text = some (number, rest)) : rest <:+ text := by
  cases text with
  | nil => cases read_
  | cons char others =>
      rw [readNumber, Option.map_eq_some_iff] at read_
      obtain ⟨digit, _, same⟩ := read_
      have suffix := suffix_readDigits others digit
      rw [same] at suffix
      exact suffix.trans (List.suffix_cons char others)

theorem mem_of_afterChar {expected : Char} {rest : List Char}
    (read_ : afterChar expected text = some rest) : expected ∈ text := by
  cases text with
  | nil => cases read_
  | cons char others =>
      rw [afterChar] at read_
      split at read_
      · rename_i same
        rw [same]
        exact List.mem_cons_self
      · cases read_

/-- The prefix of a patch set has a colon. -/
theorem afterPatchSet_colonless (colonless : ':' ∉ text) : afterPatchSet text = none := by
  rw [Option.eq_none_iff_forall_ne_some]
  intro rest read_
  apply colonless
  unfold afterPatchSet at read_
  simp only [Option.bind_eq_bind, Option.bind_eq_some_iff] at read_
  obtain ⟨afterPatch, patch, afterFirst, first, afterSet, set_, afterSecond, second,
    ⟨number, afterNumber⟩, numbered, afterColon, colon, _⟩ := read_
  have numberSuffix := suffix_readNumber numbered
  have suffix : afterNumber <:+ text :=
    numberSuffix.trans <| (suffix_afterSpaces second).trans <|
      (suffix_afterLetters set_).trans <| (suffix_afterSpaces first).trans <|
        (suffix_afterLetters patch).trans (List.dropWhile_suffix _)
  exact suffix.subset ((List.dropWhile_suffix _).subset (mem_of_afterChar colon))

/-- A vote has a colon. -/
theorem afterVote_colonless (colonless : ':' ∉ text) : afterVote text = none := by
  cases text with
  | nil => rfl
  | cons char rest =>
      rw [afterVote]
      split
      · rw [Option.bind_eq_bind, Option.bind_eq_none_iff]
        intro found read_
        have member := (List.dropWhile_suffix _).subset (mem_of_afterChar read_)
        exact absurd (List.mem_cons_of_mem char member) colonless
      · rfl

theorem afterLetters_other {letter char : Char} {letters rest : List Char}
    (other : foldsTo letter char = false) :
    afterLetters (letter :: letters) (char :: rest) = none := by
  rw [afterLetters, other]
  rfl

theorem colon_not_mem_of_lstrip (colonless : ':' ∉ lstrip text) :
    ':' ∉ text := by
  intro member
  exact colonless (mem_of_words (words_lstrip text).symm (by decide) member)

theorem afterPatchSet_undecorated (undecorated : Undecorated (lstrip text)) :
    afterPatchSet text = none := by
  obtain ⟨first, begins, _, heading | ⟨_, colonless⟩⟩ := undecorated
  · obtain ⟨rest, chars⟩ := List.head?_eq_some_iff.mp begins
    subst heading
    unfold afterPatchSet
    rw [chars, afterLetters_other (by decide)]
    rfl
  · exact afterPatchSet_colonless (colon_not_mem_of_lstrip colonless)

/-- No decoration begins so. -/
theorem afterDecoration_undecorated (undecorated : Undecorated text) :
    afterDecoration word text = none := by
  obtain ⟨first, begins, _, heading | ⟨noParenthesis, colonless⟩⟩ := undecorated
  · obtain ⟨rest, chars⟩ := List.head?_eq_some_iff.mp begins
    subst heading
    rw [chars]
    rfl
  · have noCount : afterChar '(' text = none := by
      obtain ⟨rest, chars⟩ := List.head?_eq_some_iff.mp begins
      rw [chars, afterChar, if_neg noParenthesis]
    unfold afterDecoration
    rw [noCount]
    dsimp only
    rw [afterVote_colonless colonless, Option.map_none]

theorem stripDecorations_undecorated (rounds : Nat) (undecorated : Undecorated text) :
    stripDecorations word rounds text = text := by
  cases rounds with
  | zero => rfl
  | succ rounds => rw [stripDecorations, afterDecoration_undecorated undecorated]

/-- An undecorated message keeps its words. -/
theorem normalizedWords_undecorated (undecorated : Undecorated (lstrip text)) :
    normalizedWords word text = words text := by
  unfold normalizedWords
  rw [afterPatchSet_undecorated undecorated]
  dsimp only [Option.getD_none]
  rw [stripDecorations_undecorated _ undecorated, words_lstrip]

theorem isPythonSpace_of_isDigit {char : Char} (digit : char.isDigit = true) :
    isPythonSpace char = false := by
  have bounds : 48 ≤ char.toNat ∧ char.toNat ≤ 57 := by
    simpa [Char.isDigit, UInt32.le_iff_toNat_le] using digit
  simp [isPythonSpace]
  omega

/-- A number begins a text. -/
theorem lstrip_toDigits (number : Nat) (rest : List Char) :
    lstrip (Nat.toDigits 10 number ++ rest) = Nat.toDigits 10 number ++ rest := by
  cases written : Nat.toDigits 10 number with
  | nil => exact absurd written Nat.toDigits_ne_nil
  | cons char digits =>
      have member : char ∈ Nat.toDigits 10 number := by
        rw [written]
        exact List.mem_cons_self
      have digit : char.isDigit = true :=
        Nat.isDigit_of_mem_toDigits (by decide) (by decide) member
      exact lstrip_cons (isPythonSpace_of_isDigit digit)

/-- The prefix of the patch set is stripped. -/
theorem afterPatchSet_decorated (patchset : Nat) (rest : List Char) :
    afterPatchSet ("Patch Set ".toList ++
        (Nat.toDigits 10 patchset ++ (":\n\n".toList ++ rest))) =
      some (lstrip rest) := by
  have label : "Patch Set ".toList = ['P', 'a', 't', 'c', 'h', ' ', 'S', 'e', 't', ' '] := by
    simp
  have colon : ":\n\n".toList = [':', '\n', '\n'] := by simp
  have stops : ∀ char ∈ (':' :: '\n' :: '\n' :: rest).head?, decimalDigit char = none := by
    intro char first
    cases first
    decide
  have number := readNumber_toDigits patchset stops
  have digits := lstrip_toDigits patchset (':' :: '\n' :: '\n' :: rest)
  have blank : lstrip ('\n' :: '\n' :: rest) = lstrip rest := by
    rw [lstrip_space (by decide), lstrip_space (by decide)]
  have patch (others : List Char) :
      afterLetters ['p', 'a', 't', 'c', 'h']
          (lstrip ('P' :: 'a' :: 't' :: 'c' :: 'h' :: others)) =
        some others := by
    rw [lstrip_cons (by decide)]
    rfl
  have set_ (others : List Char) :
      afterLetters ['s', 'e', 't'] ('S' :: 'e' :: 't' :: others) = some others :=
    rfl
  have space (others : List Char) : afterSpaces (' ' :: others) = some (lstrip others) :=
    rfl
  have colonChar (others : List Char) :
      afterChar ':' (lstrip (':' :: others)) = some others := by
    rw [lstrip_cons (by decide)]
    rfl
  have second (others : List Char) :
      lstrip ('S' :: 'e' :: 't' :: others) = 'S' :: 'e' :: 't' :: others :=
    lstrip_cons (by decide)
  rw [label, colon]
  unfold afterPatchSet
  simp only [List.cons_append, List.nil_append, patch, space, second, set_, digits, number,
    colonChar, blank, Option.bind_eq_bind, Option.bind_some]

/-- The place on the line that is found does not depend on what is before it. -/
theorem lastComments_append {chars rest found : List Char} (whole : '\n' ∉ chars)
    (later : ∀ before, lastComments word before rest = some found) (before : Char) :
    lastComments word before (chars ++ rest) = some found := by
  induction chars generalizing before with
  | nil => exact later before
  | cons char chars inductionHypothesis =>
      rw [List.mem_cons, not_or] at whole
      rw [List.cons_append, lastComments, if_neg (Ne.symm whole.1),
        inductionHypothesis whole.2]

theorem isWord_blank (word : WordClass) : word.isWord ' ' = false := by
  rw [word.ascii ' ' (by decide)]
  decide

theorem isWord_c (word : WordClass) : word.isWord 'c' = true := by
  rw [word.ascii 'c' (by decide)]
  decide

theorem lastComments_comments (before : Char) (rest : List Char) :
    lastComments word before (" comments)\n\n".toList ++ rest) =
      some ('\n' :: '\n' :: rest) := by
  simp [lastComments, afterComments, afterLetters, foldsTo, afterChar, isWord_blank, isWord_c]

theorem lastComments_comment (before : Char) (rest : List Char) :
    lastComments word before (" comment)\n\n".toList ++ rest) =
      some ('\n' :: '\n' :: rest) := by
  simp [lastComments, afterComments, afterLetters, foldsTo, afterChar, isWord_blank, isWord_c]

theorem whole_toDigits (number : Nat) : '\n' ∉ Nat.toDigits 10 number := by
  intro member
  have digit := Nat.isDigit_of_mem_toDigits (by decide) (by decide) member
  exact absurd digit (by decide)

theorem lastComments_count (count : Nat) (before : Char) (rest : List Char) :
    lastComments word before
        ((if count = 1 then " comment)\n\n" else " comments)\n\n").toList ++ rest) =
      some ('\n' :: '\n' :: rest) := by
  by_cases one : count = 1
  · rw [if_pos one]
    exact lastComments_comment before rest
  · rw [if_neg one]
    exact lastComments_comments before rest

theorem afterChar_self (char : Char) (rest : List Char) :
    afterChar char (char :: rest) = some rest :=
  if_pos rfl

/-- The number of comments is stripped. -/
theorem afterDecoration_commentCount (count : Nat) (rest : List Char) :
    afterDecoration word (commentCount (some count) ++ rest) = some (lstrip rest) := by
  have blank : lstrip ('\n' :: '\n' :: rest) = lstrip rest := by
    rw [lstrip_space (by decide), lstrip_space (by decide)]
  rw [commentCount, List.cons_append, List.append_assoc]
  unfold afterDecoration
  rw [afterChar_self]
  dsimp only
  rw [lastComments_append (whole_toDigits count)
    (fun before => lastComments_count count before rest), Option.map_some, blank]

theorem lstrip_commentCount (count : Nat) (rest : List Char) :
    lstrip (commentCount (some count) ++ rest) = commentCount (some count) ++ rest :=
  lstrip_cons (by decide)

/-- What Gerrit puts before an undecorated message is stripped. -/
theorem normalizedWords_decorated (patchset : Nat) (comments : Option Nat)
    (undecorated : Undecorated (lstrip text)) :
    normalizedWords word (decoratedMessage patchset comments text) = words text := by
  unfold normalizedWords decoratedMessage
  rw [afterPatchSet_decorated, Option.getD_some]
  dsimp only
  rw [lstrip_lstrip]
  cases comments with
  | none =>
      rw [commentCount, List.nil_append, stripDecorations_undecorated _ undecorated, words_lstrip]
  | some count =>
      rw [lstrip_commentCount]
      have filled : (commentCount (some count) ++ text).length ≠ 0 := by
        rw [commentCount, List.cons_append, List.length_cons]
        exact Nat.succ_ne_zero _
      obtain ⟨rounds, length⟩ := Nat.exists_eq_succ_of_ne_zero filled
      rw [length, stripDecorations, afterDecoration_commentCount]
      dsimp only
      rw [lstrip_lstrip, stripDecorations_undecorated _ undecorated, words_lstrip]

end Normalization

/-! ## What the worker posts -/

section Rendering

/-- The summaries the engine renders, with the tracking of the findings or without. -/
inductive Rendered : String → Prop
  | summary (language changeSummary reviewSummary : String) (metadata : BudgetMetadata) :
      Rendered (renderSummary language changeSummary reviewSummary metadata)
  | tracked {original : String} (rendered : Rendered original)
      (baselinePatchset : Option Int) (newCount persistingCount reopenedCount : Nat)
      (resolved : List Finding) (complete : Bool) (language : String) :
      Rendered
        (trackingSummary original baselinePatchset newCount persistingCount reopenedCount
          resolved complete language)

/-- The reasons for which the repository manager has no review made. -/
inductive SkipReason : Option String → Prop
  | noText : SkipReason none
  | merge : SkipReason (some mergeSkipReason)
  | size (maxDiffBytes : Nat) : SkipReason (some (sizeSkipReason maxDiffBytes))

/-- The summaries of the reviews that are posted: a skipped one has no lineage, so no
tracking is added to it. -/
inductive PostedSummary : String → Prop
  | rendered {summary : String} (rendered : Rendered summary) : PostedSummary summary
  | skipped {reason : Option String} (skips : SkipReason reason) (language : String) :
      PostedSummary (skipSummary language reason)

def Headed (text : List Char) : Prop :=
  text.head? = some '#'

theorem Headed.undecorated {text : List Char} (headed : Headed text) : Undecorated text :=
  ⟨'#', headed, by decide, Or.inl rfl⟩

theorem headed_append {first : String} (headed : Headed first.toList) (second : String) :
    Headed (first ++ second).toList := by
  unfold Headed at headed ⊢
  rw [String.toList_append, List.head?_append, headed]
  rfl

theorem headed_renderSummary (language changeSummary reviewSummary : String)
    (metadata : BudgetMetadata) :
    Headed (renderSummary language changeSummary reviewSummary metadata).toList := by
  unfold renderSummary
  by_cases korean : language = "ko-KR"
  · have first : Headed "### 변경 요약".toList := by
      unfold Headed
      simp
    rw [if_pos korean]
    iterate 7 apply headed_append
    exact first
  · have first : Headed "### Change summary".toList := by
      unfold Headed
      simp
    rw [if_neg korean]
    iterate 7 apply headed_append
    exact first

theorem headed_pyStrip {text : String} (headed : Headed text.toList) :
    Headed (pyStrip text).toList := by
  obtain ⟨rest, chars⟩ := List.head?_eq_some_iff.mp headed
  have plain : ¬isPythonSpace '#' = true := by decide
  unfold pyStrip Headed
  rw [String.toList_ofList, chars, List.dropWhile_cons_of_neg plain, List.reverse_cons,
    List.dropWhile_append]
  split
  · rw [List.dropWhile_cons_of_neg plain]
    rfl
  · rw [List.reverse_append]
    rfl

theorem headed_pyJoin {separator first : String} (headed : Headed first.toList)
    (others : List String) : Headed (pyJoin separator (first :: others)).toList := by
  unfold pyJoin
  cases others with
  | nil =>
      rw [String.intercalate_singleton]
      exact headed
  | cons second others =>
      rw [String.intercalate_cons_cons, String.append_assoc]
      exact headed_append headed _

theorem ne_empty_of_headed {text : String} (headed : Headed text.toList) : text ≠ "" := by
  intro empty
  rw [empty] at headed
  cases headed

/-- The first of the sections that are joined. -/
theorem headed_sections {separator first : String} (headed : Headed first.toList)
    (others : List String) :
    Headed
      (pyJoin separator
        ((first :: others).filter fun section_ => decide (section_ ≠ ""))).toList := by
  have kept : decide (first ≠ "") = true :=
    decide_eq_true (ne_empty_of_headed headed)
  rw [List.filter_cons, if_pos kept]
  exact headed_pyJoin headed _

theorem headed_trackingSummary {original : String} (headed : Headed original.toList)
    (baselinePatchset : Option Int) (newCount persistingCount reopenedCount : Nat)
    (resolved : List Finding) (complete : Bool) (language : String) :
    Headed
      (trackingSummary original baselinePatchset newCount persistingCount reopenedCount
        resolved complete language).toList := by
  have stripped := headed_pyStrip headed
  unfold trackingSummary
  dsimp only
  split
  · exact headed_sections stripped _
  · exact headed_sections stripped _

theorem Rendered.headed {summary : String} (rendered : Rendered summary) :
    Headed summary.toList := by
  induction rendered with
  | summary language changeSummary reviewSummary metadata =>
      exact headed_renderSummary language changeSummary reviewSummary metadata
  | tracked _ baselinePatchset newCount persistingCount reopenedCount resolved complete
      language inductionHypothesis =>
      exact headed_trackingSummary inductionHypothesis baselinePatchset newCount
        persistingCount reopenedCount resolved complete language

theorem findBytes_isDigit {text digits : List Char} (found : findBytes text = some digits) :
    ∀ char ∈ digits, char.isDigit = true := by
  obtain ⟨tail, _, read_⟩ := List.exists_of_findSome?_eq_some found
  unfold bytesAt at read_
  split at read_
  · dsimp only at read_
    split at read_
    · cases read_
      intro char member
      exact List.mem_takeWhile_imp member
    · cases read_
  · cases read_

theorem colonless_of_isDigit {digits : List Char}
    (allDigits : ∀ char ∈ digits, char.isDigit = true) : ':' ∉ digits := by
  intro member
  exact absurd (allDigits ':' member) (by decide)

theorem colonless_append {first second : String} (colonless : ':' ∉ first.toList)
    (others : ':' ∉ second.toList) : ':' ∉ (first ++ second).toList := by
  rw [String.toList_append, List.mem_append, not_or]
  exact ⟨colonless, others⟩

theorem colonless_ofList {digits : List Char}
    (allDigits : ∀ char ∈ digits, char.isDigit = true) :
    ':' ∉ (String.ofList digits).toList := by
  rw [String.toList_ofList]
  exact colonless_of_isDigit allDigits

/-- The characters of a literal are compared one by one, without decoding the literal. -/
theorem colonless_literal {text : String} {chars : List Char}
    (spelled : text = String.ofList chars) (colonless : chars.contains ':' = false) :
    ':' ∉ text.toList := by
  rw [spelled, String.toList_ofList]
  simpa using colonless

/-- A text with no colon that begins neither with white space nor with a parenthesis. -/
def Plain (text : String) : Prop :=
  ∃ first, text.toList.head? = some first ∧ isPythonSpace first = false ∧
    first ≠ '(' ∧ ':' ∉ text.toList

theorem Plain.undecorated {text : String} (plain : Plain text) : Undecorated text.toList := by
  obtain ⟨first, begins, solid, noParenthesis, colonless⟩ := plain
  exact ⟨first, begins, solid, Or.inr ⟨noParenthesis, colonless⟩⟩

theorem Plain.literal {text : String} {first : Char} {chars : List Char}
    (spelled : text = String.ofList (first :: chars)) (solid : isPythonSpace first = false)
    (noParenthesis : first ≠ '(') (colonless : (first :: chars).contains ':' = false) :
    Plain text := by
  refine ⟨first, ?_, solid, noParenthesis, colonless_literal spelled colonless⟩
  rw [spelled, String.toList_ofList]
  rfl

theorem Plain.append {first second : String} (plain : Plain first)
    (colonless : ':' ∉ second.toList) : Plain (first ++ second) := by
  obtain ⟨char, begins, solid, noParenthesis, others⟩ := plain
  refine ⟨char, ?_, solid, noParenthesis, colonless_append others colonless⟩
  rw [String.toList_append, List.head?_append, begins]
  rfl

theorem plain_mergeSkipReason : Plain mergeSkipReason := by
  have first : Plain
      "Automated review skipped for this merge commit. Gerrit 3.8 compares merge " :=
    Plain.literal rfl (by decide) (by decide) rfl
  have second := first.append (colonless_literal rfl rfl :
    ':' ∉ "revisions against its auto-merge base, while a local first-parent diff can ".toList)
  exact (second.append (colonless_literal rfl rfl)).append (colonless_literal rfl rfl)

theorem plain_sizeSkipReason (maxDiffBytes : Nat) : Plain (sizeSkipReason maxDiffBytes) := by
  have first : Plain
      ("Automated review skipped because this Patch Set exceeds the configured " ++
        "repository diff safety ceiling (") :=
    (Plain.literal rfl (by decide) (by decide) rfl).append (colonless_literal rfl rfl)
  have digits : ':' ∉ (String.ofList (Nat.toDigits 10 maxDiffBytes)).toList :=
    colonless_ofList fun char member =>
      Nat.isDigit_of_mem_toDigits (by decide) (by decide) member
  exact ((first.append digits).append (colonless_literal rfl rfl)).append
    (colonless_literal rfl rfl)

theorem SkipReason.plain {reason : Option String} (skips : SkipReason reason) :
    ∀ text ∈ reason, Plain text := by
  intro text member
  cases skips with
  | noText => cases member
  | merge =>
      cases member
      exact plain_mergeSkipReason
  | size maxDiffBytes =>
      cases member
      exact plain_sizeSkipReason maxDiffBytes

/-- The limit that is shown is a number of the reason. -/
theorem colonless_limit (reason : String) :
    ':' ∉
      (match findBytes reason.toList with
        | some digits => " (" ++ String.ofList digits ++ " bytes)"
        | none => "").toList := by
  cases found : findBytes reason.toList with
  | none => decide
  | some digits =>
      have limit := colonless_ofList (findBytes_isDigit found)
      exact colonless_append (colonless_append (colonless_literal rfl rfl) limit)
        (colonless_literal rfl rfl)

/-- In Korean the two reasons are told in other words. -/
theorem plain_skipSummary {reason : Option String} (plain : ∀ text ∈ reason, Plain text)
    (language : String) : Plain (skipSummary language reason) := by
  unfold skipSummary
  by_cases korean : language = "ko-KR"
  · rw [if_neg (not_not.mpr korean)]
    cases reason with
    | none =>
        exact ((Plain.literal rfl (by decide) (by decide) rfl).append
          (colonless_literal rfl rfl)).append (colonless_literal rfl rfl)
    | some text =>
        dsimp only
        split
        · exact (((Plain.literal rfl (by decide) (by decide) rfl).append
            (colonless_literal rfl rfl)).append (colonless_literal rfl rfl)).append
            (colonless_literal rfl rfl)
        · split
          · have first : Plain
                ("이 Patch Set이 설정된 repository diff 안전 한도를 초과하여 자동 리뷰를 " ++
                  "건너뛰었습니다") :=
              (Plain.literal rfl (by decide) (by decide) rfl).append (colonless_literal rfl rfl)
            have limited := first.append (colonless_limit text)
            have told := limited.append (colonless_literal rfl rfl :
              ':' ∉ ". AI finding이나 review vote를 생성하지 않았습니다. ".toList)
            exact (told.append (colonless_literal rfl rfl)).append (colonless_literal rfl rfl)
          · exact plain text rfl
  · rw [if_pos korean]
    split
    · rename_i text kept
      exact plain text (Option.filter_eq_some_iff.mp kept).1
    · exact Plain.literal rfl (by decide) (by decide) rfl

theorem PostedSummary.undecorated {summary : String} (posted : PostedSummary summary) :
    Undecorated summary.toList := by
  cases posted with
  | rendered rendered => exact rendered.headed.undecorated
  | skipped skips language => exact (plain_skipSummary skips.plain language).undecorated

/-- A cut keeps the first character, and what it adds has no colon. -/
theorem undecorated_truncateUtf8Comment {text : String} {maxBytes : Nat}
    (undecorated : Undecorated text.toList) (room : 1024 ≤ maxBytes) :
    Undecorated (truncateUtf8Comment text maxBytes).toList := by
  unfold truncateUtf8Comment
  split
  · exact undecorated
  · obtain ⟨first, begins, solid, start⟩ := undecorated
    have marker :
        "\n\n[truncated by review bot to Gerrit comment size limit]".utf8ByteSize = 56 := by
      decide +kernel
    obtain ⟨rest, chars⟩ := List.head?_eq_some_iff.mp begins
    have fits : first.utf8Size ≤
        maxBytes -
          "\n\n[truncated by review bot to Gerrit comment size limit]".utf8ByteSize := by
      have small := first.utf8Size_le_four
      omega
    refine ⟨first, ?_, solid, start.imp_right fun plain => ⟨plain.1, ?_⟩⟩
    · rw [String.toList_append, String.toList_ofList, chars, takeUtf8, if_pos fits]
      rfl
    · apply colonless_append
      · rw [String.toList_ofList]
        intro member
        exact plain.2 ((takeUtf8_isPrefix _ _).subset member)
      · exact colonless_literal rfl rfl

/-- The message of a review input is undecorated as the summary is. -/
theorem undecorated_message {review : ReviewResult} {input : ReviewInput}
    {tag notify : String} {maxCommentBytes : Nat} (posted : PostedSummary review.summary)
    (built : buildReviewInput review tag notify maxCommentBytes = .ok input) :
    Undecorated input.message.toList := by
  unfold buildReviewInput at built
  obtain ⟨accepted, required, result⟩ := Except.bind_eq_ok.mp built
  rw [Except.require_eq_ok, decide_eq_true_eq] at required
  cases result
  exact undecorated_truncateUtf8Comment posted.undecorated required

end Rendering

section Lookup

variable {word : WordClass} {text : String}

theorem lstrip_of_undecorated {text : List Char} (undecorated : Undecorated text) :
    Undecorated (lstrip text) := by
  have same : lstrip text = text := by
    obtain ⟨first, begins, solid, _⟩ := undecorated
    obtain ⟨rest, chars⟩ := List.head?_eq_some_iff.mp begins
    rw [chars, lstrip_cons solid]
  rw [same]
  exact undecorated

/-- A message with the words of an undecorated one is undecorated below its white space. -/
theorem undecorated_of_words {text other : List Char}
    (undecorated : Undecorated (lstrip other)) (same : words text = words other) :
    Undecorated (lstrip text) := by
  obtain ⟨first, begins, solid, start⟩ := undecorated
  refine ⟨first, ?_, solid, start.imp_right fun plain => ⟨plain.1, ?_⟩⟩
  · rw [← head_words, same, head_words, begins]
  · have stripped : words (lstrip text) = words (lstrip other) := by
      rw [words_lstrip, same, words_lstrip]
    intro member
    exact plain.2 (mem_of_words stripped (by decide) member)

theorem pyJoin_ne_empty {separator first : String} (filled : first ≠ "")
    (others : List String) : pyJoin separator (first :: others) ≠ "" := by
  unfold pyJoin
  cases others with
  | nil =>
      rw [String.intercalate_singleton]
      exact filled
  | cons second others =>
      rw [String.intercalate_cons_cons, String.append_assoc]
      intro empty
      exact filled (String.append_eq_empty_iff.mp empty).1

/-- An undecorated message has a word. -/
theorem normalize_ne_empty (undecorated : Undecorated (lstrip text.toList)) :
    normalizeReviewMessage word text ≠ "" := by
  unfold normalizeReviewMessage
  rw [normalizedWords_undecorated undecorated]
  obtain ⟨char, begins, _⟩ := undecorated
  have first := head_words text.toList
  rw [begins] at first
  cases listed : words text.toList with
  | nil =>
      rw [listed] at first
      cases first
  | cons one others =>
      rw [listed] at first
      have filled : String.ofList one ≠ "" := by
        intro empty
        rw [String.ofList_eq_empty_iff] at empty
        subst empty
        cases first
      exact pyJoin_ne_empty filled (others.map String.ofList)

/-- A message of Gerrit: an object whose revision number, if it has one, is finite. -/
def IsMessage (item : Json) : Prop :=
  ∃ message, item = .object message ∧
    (Json.field message "_revision_number").isInfinite = false

/-- A finite revision number is read, or there is none. -/
theorem messageRevisionNumber_ok {message : Dict String Json}
    (finite : (Json.field message "_revision_number").isInfinite = false) :
    ∃ number, messageRevisionNumber message = .ok number := by
  unfold messageRevisionNumber
  cases read_ : (Json.field message "_revision_number").toInt with
  | ok number => exact ⟨_, rfl⟩
  | error raised =>
      cases raised with
      | overflowError =>
          rw [Json.toInt_eq_overflowError, finite] at read_
          cases read_
      | typeError | valueError | osError | runtimeError => exact ⟨none, rfl⟩

theorem matches_isMessage (word : WordClass) {item : Json} (isMessage : IsMessage item)
    (expected : ExpectedMessage) :
    ∃ found, expected.matches_ word item = .ok found := by
  obtain ⟨message, same, finite⟩ := isMessage
  obtain ⟨number, numbered⟩ := messageRevisionNumber_ok finite
  subst same
  unfold ExpectedMessage.matches_
  simp only [Json.fields?, numbered]
  split
  · exact ⟨false, rfl⟩
  · split
    · exact ⟨false, rfl⟩
    · exact ⟨_, rfl⟩

/-- The loop comes to a message that matches. -/
theorem isIn_of_matches {expected : ExpectedMessage} {before : List Json} {item : Json}
    (messages : ∀ other ∈ before, IsMessage other)
    (found : expected.matches_ word item = .ok true) (after : List Json) :
    expected.isIn word (before ++ item :: after) = .ok true := by
  induction before with
  | nil =>
      rw [List.nil_append, ExpectedMessage.isIn, found]
  | cons other before inductionHypothesis =>
      rw [List.forall_mem_cons] at messages
      obtain ⟨answer, computed⟩ := matches_isMessage word messages.1 expected
      rw [List.cons_append, ExpectedMessage.isIn, computed]
      cases answer with
      | true => rfl
      | false => exact inductionHypothesis messages.2

end Lookup

/-- Every message the worker can post is found among the messages of the change, however
its white space is spread and with what Gerrit puts before it. -/
theorem posted_review_found (word : WordClass) {review : ReviewResult} {input : ReviewInput}
    {tag notify : String} {maxCommentBytes : Nat} (posted : PostedSummary review.summary)
    (built : buildReviewInput review tag notify maxCommentBytes = .ok input)
    {patchset : Nat} (positive : 1 ≤ patchset) (comments : Option Nat) {text : List Char}
    (spread : words text = words input.message.toList) :
    normalizeReviewMessage word
        (String.ofList (decoratedMessage patchset comments text)) =
      normalizeReviewMessage word input.message ∧
    normalizeReviewMessage word input.message ≠ "" ∧
    ∀ (settings : MessageSettings) (project : String) (botTag : Option String)
      (before after : List Json) (message : Dict String Json),
      project ∈ settings.allowlist → (∀ other ∈ before, IsMessage other) →
      Json.field message "tag" =
        .string ((botTag.filter fun tag => tag ≠ "").getD settings.reviewTag) →
      Json.field message "_revision_number" = .int patchset →
      Json.field message "message" =
        .string (String.ofList (decoratedMessage patchset comments text)) →
      hasPublishedReviewIn word settings project patchset input.message botTag
        (.array (before ++ .object message :: after)) = .ok true := by
  have undecorated := lstrip_of_undecorated (undecorated_message posted built)
  have spreadUndecorated := undecorated_of_words undecorated spread
  have same : normalizeReviewMessage word
      (String.ofList (decoratedMessage patchset comments text)) =
        normalizeReviewMessage word input.message := by
    unfold normalizeReviewMessage
    rw [String.toList_ofList, normalizedWords_decorated patchset comments spreadUndecorated,
      normalizedWords_undecorated undecorated, spread]
  have filled : normalizeReviewMessage word input.message ≠ "" := normalize_ne_empty undecorated
  refine ⟨same, filled, ?_⟩
  intro settings project botTag before after message allowed messages tagged numbered sent
  have allowedContains : settings.allowlist.contains project = true :=
    List.contains_iff_mem.mpr allowed
  have atLeastOne : ¬(patchset : Int) < 1 := by
    omega
  have nonzero : patchset ≠ 0 := by
    omega
  unfold hasPublishedReviewIn
  simp only [allowedContains, Bool.not_true, Bool.false_eq_true, if_false, atLeastOne, filled]
  apply isIn_of_matches messages
  simp [ExpectedMessage.matches_, messageRevisionNumber, Json.fields?, tagged, numbered, sent,
    Json.text, Json.toInt, nonzero, same]

/-- The characters of `\w` in a text of ASCII characters. -/
def asciiWords : WordClass where
  isWord := fun char => char.isAlphanum || char = '_'
  ascii := fun _ _ => rfl

def cleanReview : ReviewResult :=
  { summary := renderSummary "en-US" "(1 comment)" "Code-Review: +1"
      { coverage := {}
        complete := true
        verificationComplete := true
        verificationCandidatesTotal := 0
        verificationCandidatesProcessed := 0
        stopReasons := []
        usage := {} } }

/-- The review is found as the second message, below two comments. -/
theorem posted_review_found_commented :
    hasPublishedReviewIn asciiWords
      { allowlist := ["firmware"], reviewTag := "autogenerated:review" } "firmware" 3
      (truncateUtf8Comment cleanReview.summary 1024) none
      (.array
        [.object [("_revision_number", .int 1)],
          .object
            [("tag", .string "autogenerated:review"),
              ("_revision_number", .int 3),
              ("message",
                .string
                  (String.ofList
                    (decoratedMessage 3 (some 2)
                      (truncateUtf8Comment cleanReview.summary 1024).toList)))]]) =
      .ok true := by
  have posted : PostedSummary cleanReview.summary :=
    PostedSummary.rendered (Rendered.summary _ _ _ _)
  have built : buildReviewInput cleanReview "autogenerated:review" "NONE" 1024 =
      .ok
        { message := truncateUtf8Comment cleanReview.summary 1024
          tag := "autogenerated:review"
          notify := "NONE"
          comments := [] } :=
    rfl
  have positive : 1 ≤ 3 := by decide
  have found := posted_review_found asciiWords posted built positive (some 2) rfl
  apply found.2.2 _ _ none [.object [("_revision_number", .int 1)]] []
  · simp
  · intro other member
    rw [List.mem_singleton] at member
    exact ⟨_, member, rfl⟩
  · rfl
  · rfl
  · rfl

end PeReview
