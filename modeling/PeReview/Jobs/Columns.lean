import PeReview.Jobs.Store.Results
import PeReview.Review.Lineage

/-!
# The columns of a review result

What the columns of `review_results` and `review_findings` hold (`jobs/models.py`), and
what PostgreSQL takes for them when a transaction is flushed.
-/

namespace PeReview

open PeReview.Data

/-- PostgreSQL has no null character in a text, nor in the text of a `JSONB` value. -/
def isStorable (text : String) : Bool :=
  !text.toList.contains '\x00'

/-- A text within `String(size)`. -/
def fitsVarchar (size : Nat) (text : String) : Bool :=
  isStorable text && text.length ≤ size

/-- A text PostgreSQL takes for `String(size)`: spaces behind the size are cut off. -/
def acceptsVarchar (size : Nat) (text : String) : Bool :=
  isStorable text && (text.toList.drop size).all fun char => char = ' '

/-- What is stored of a text in `String(size)`. -/
def storedVarchar (size : Nat) (text : String) : String :=
  String.ofList (text.toList.take size)

/-- A number within `Integer`. -/
def fitsInteger (value : Nat) : Bool :=
  value < 2147483648

namespace ReviewFinding

/-- The columns of a finding, with the check of those with a size. -/
def checkColumns (varchar : Nat → String → Bool) (row : ReviewFinding) : Bool :=
  varchar 64 row.fingerprint && varchar 64 row.semanticId && varchar 128 row.category &&
    [row.title, row.message, row.impact, row.evidence, row.path].all isStorable &&
    row.remediation.all isStorable &&
    [row.ordinal, row.startLine, row.startCharacter].all fitsInteger &&
    row.endLine.all fitsInteger && row.endCharacter.all fitsInteger &&
    0 ≤ row.confidence && row.confidence ≤ 1

def fits (row : ReviewFinding) : Bool :=
  row.checkColumns fitsVarchar

def stored (row : ReviewFinding) : ReviewFinding :=
  { row with
    fingerprint := storedVarchar 64 row.fingerprint
    semanticId := storedVarchar 64 row.semanticId
    category := storedVarchar 128 row.category }

end ReviewFinding

def ReviewMetadata.texts (metadata : ReviewMetadata) : List String :=
  [metadata.engine, metadata.outputLanguage, metadata.skippedReason, metadata.changeSummary,
      metadata.reviewSummary].filterMap id ++
    (match metadata.reviewBudget with
      | none => []
      | some budget => budget.coverage.uncoveredFiles ++ budget.stopReasons) ++
    (match metadata.findingLineage with
      | none => []
      | some tracking => tracking.resolvedSemanticIds) ++
    match metadata.projectReviewPolicy with
    | none => []
    | some policy => [policy.reviewLanguage, policy.outputLanguage, policy.source]

namespace ReviewResultRow

def checkColumns (varchar : Nat → String → Bool) (row : ReviewResultRow) : Bool :=
  isStorable row.summary && row.model.all (varchar 255) &&
    row.inputTokens.all fitsInteger && row.outputTokens.all fitsInteger &&
    row.reviewMetadata.texts.all isStorable

/-- The flush of a new result and its findings; fingerprints are unique within a job. -/
def flush (row : ReviewResultRow) : Except PyError ReviewResultRow := do
  let findings := row.findings.map ReviewFinding.stored
  Except.require
    (row.checkColumns acceptsVarchar &&
      row.findings.all (ReviewFinding.checkColumns acceptsVarchar) &&
      decide (findings.map ReviewFinding.fingerprint).Nodup)
    { cls := .databaseError, message := "a value does not fit its column" }
  .ok { row with model := row.model.map (storedVarchar 255), findings }

end ReviewResultRow

namespace Store

/-- `save_review_result_and_mark_ready` with its flush. -/
def flushReviewResult (store : Store) (digest : Digest) (now : Time) (id : JobId)
    (review : ReviewResult) (worker : WorkerId) : Except PyError (Store × JobRecord) := do
  let (saved, record) ← store.saveReviewResultAndMarkReady digest now id review worker
  match (store.jobs[id]?).bind Job.result, saved.jobs[id]? with
  | none, some job =>
      match job.result with
      | none => .ok (saved, record)
      | some row => do
          let flushed ← row.flush
          .ok (saved.setJob id { job with result := some flushed }, record)
  | _, _ => .ok (saved, record)

end Store

section Texts

variable {text first second separator : String} {parts : List String} {size : Nat}

theorem isStorable_iff : isStorable text = true ↔ '\x00' ∉ text.toList := by
  unfold isStorable
  simp

theorem isStorable_append :
    isStorable (first ++ second) = (isStorable first && isStorable second) := by
  rw [Bool.eq_iff_iff, Bool.and_eq_true]
  simp only [isStorable_iff, String.toList_append, List.mem_append, not_or]

theorem isStorable_pyJoin (plain : isStorable separator = true) :
    isStorable (pyJoin separator parts) = parts.all isStorable := by
  unfold pyJoin
  induction parts with
  | nil => rfl
  | cons part rest inductionHypothesis =>
      cases rest with
      | nil => simp
      | cons other rest =>
          rw [String.intercalate_cons_cons, isStorable_append, isStorable_append, plain,
            inductionHypothesis, Bool.and_true]
          rfl

theorem mem_dropWhile {char : Char} {chars : List Char} {drops : Char → Bool}
    (kept : drops char = false) : char ∈ chars.dropWhile drops ↔ char ∈ chars := by
  induction chars with
  | nil => rfl
  | cons head rest inductionHypothesis =>
      rw [List.dropWhile_cons]
      split
      · rename_i dropped
        have different : char ≠ head := by
          intro same
          rw [same, dropped] at kept
          cases kept
        rw [inductionHypothesis, List.mem_cons, or_iff_right different]
      · rfl

theorem isStorable_pyStrip : isStorable (pyStrip text) = isStorable text := by
  rw [Bool.eq_iff_iff, isStorable_iff, isStorable_iff]
  unfold pyStrip
  have plain : isPythonSpace '\x00' = false := by decide
  rw [String.toList_ofList, List.mem_reverse, mem_dropWhile plain, List.mem_reverse,
    mem_dropWhile plain]

theorem acceptsVarchar_of_fits (fits : fitsVarchar size text = true) :
    acceptsVarchar size text = true := by
  unfold fitsVarchar at fits
  unfold acceptsVarchar
  rw [Bool.and_eq_true, decide_eq_true_eq] at fits
  have nothing : text.toList.drop size = [] := by
    apply List.drop_of_length_le
    rw [String.length_toList]
    exact fits.2
  rw [fits.1, nothing]
  rfl

theorem storedVarchar_of_fits (fits : fitsVarchar size text = true) :
    storedVarchar size text = text := by
  unfold fitsVarchar at fits
  rw [Bool.and_eq_true, decide_eq_true_eq] at fits
  unfold storedVarchar
  rw [List.take_of_length_le, String.ofList_toList]
  rw [String.length_toList]
  exact fits.2

theorem isStorable_toString_nat (number : Nat) : isStorable (toString number) = true := by
  rw [isStorable_iff]
  intro member
  rw [Nat.toString_eq_repr, Nat.repr_eq_ofList_toDigits, String.toList_ofList] at member
  have digit : '\x00'.isDigit = true :=
    Nat.isDigit_of_mem_toDigits (by decide) (by decide) member
  cases digit

theorem isStorable_toString_int (number : Int) : isStorable (toString number) = true := by
  cases number with
  | ofNat natural =>
      exact isStorable_toString_nat natural
  | negSucc natural =>
      have written : toString (Int.negSucc natural) = "-" ++ toString (natural + 1) := rfl
      rw [written, isStorable_append, isStorable_toString_nat]
      rfl

/-- Empty parts may be left out. -/
theorem all_isStorable_filter :
    (parts.filter fun part => part ≠ "").all isStorable = parts.all isStorable := by
  rw [List.all_filter]
  apply List.all_congr rfl
  intro part
  by_cases empty : part = ""
  · rw [empty]
    rfl
  · simp [empty]

end Texts

section Rows

variable {row : ReviewFinding} {result : ReviewResultRow}

/-- A row within its bounds is stored as it is. -/
theorem ReviewFinding.stored_of_fits (fits : row.fits = true) : row.stored = row := by
  unfold ReviewFinding.fits checkColumns at fits
  simp only [Bool.and_eq_true] at fits
  unfold stored
  rw [storedVarchar_of_fits (by tauto), storedVarchar_of_fits (by tauto),
    storedVarchar_of_fits (by tauto)]

theorem ReviewFinding.accepts_of_fits (fits : row.fits = true) :
    row.checkColumns acceptsVarchar = true := by
  unfold ReviewFinding.fits checkColumns at fits
  unfold checkColumns
  simp only [Bool.and_eq_true] at fits ⊢
  have fingerprint : acceptsVarchar 64 row.fingerprint = true :=
    acceptsVarchar_of_fits (by tauto)
  have semanticId : acceptsVarchar 64 row.semanticId = true :=
    acceptsVarchar_of_fits (by tauto)
  have category : acceptsVarchar 128 row.category = true :=
    acceptsVarchar_of_fits (by tauto)
  tauto

/-- A result is stored with findings within their bounds if its own columns take it. -/
theorem ReviewResultRow.flush_of_fits (fits : ∀ row ∈ result.findings, row.fits = true)
    (distinct : (result.findings.map ReviewFinding.fingerprint).Nodup) :
    (∃ stored, result.flush = .ok stored) ↔ result.checkColumns acceptsVarchar = true := by
  have kept : result.findings.map ReviewFinding.stored = result.findings := by
    rw [List.map_congr_left fun row member => ReviewFinding.stored_of_fits (fits row member)]
    exact List.map_id' _
  have accepted : result.findings.all (ReviewFinding.checkColumns acceptsVarchar) = true := by
    rw [List.all_eq_true]
    intro row member
    exact ReviewFinding.accepts_of_fits (fits row member)
  unfold flush
  rw [kept, accepted, Bool.and_true]
  dsimp only
  rw [decide_eq_true distinct, Bool.and_true]
  cases result.checkColumns acceptsVarchar with
  | true => exact ⟨fun _ => rfl, fun _ => ⟨_, rfl⟩⟩
  | false =>
      constructor
      · intro stored
        obtain ⟨_, failed⟩ := stored
        cases failed
      · intro failed
        cases failed

end Rows

end PeReview
