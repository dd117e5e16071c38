import PeReview.Data.Except
import PeReview.Domain

/-!
# Findings of the model

The checks the `Finding` and `FindingLocation` models make on the values of a
finding.  Both parsers accept an answer exactly when its findings pass them.
-/

namespace PeReview

open PeReview.Data

def isHexadecimal (char : Char) : Bool :=
  ('0' ≤ char && char ≤ '9') || ('a' ≤ char && char ≤ 'f')

/-- The pattern `^[0-9a-f]{32}$`. -/
def isSemanticId (text : String) : Bool :=
  text.toList.length = 32 && text.toList.all isHexadecimal

/-- `FindingLocation.model_validate`. -/
def FindingLocation.modelValidate (raw : FindingLocation) :
    Except PyError FindingLocation := do
  Except.require (1 ≤ raw.startLine)
    (.value "start_line: Input should be greater than or equal to 1")
  Except.require (raw.endLine.all fun line => decide (1 ≤ line))
    (.value "end_line: Input should be greater than or equal to 1")
  raw.validateRange

/-- `Finding.model_validate`. -/
def Finding.modelValidate (raw : Finding) : Except PyError Finding := do
  let location ← raw.location.modelValidate
  Except.require (0 ≤ raw.confidence)
    (.value "confidence: Input should be greater than or equal to 0")
  Except.require (raw.confidence ≤ 1)
    (.value "confidence: Input should be less than or equal to 1")
  Except.require (raw.semanticId.all isSemanticId)
    (.value "semantic_id: String should match pattern '^[0-9a-f]\x7b32\x7d$'")
  .ok { raw with location }

/-- A well-formed identifier is not empty. -/
theorem ne_empty_of_isSemanticId {text : String} (shaped : isSemanticId text) :
    text ≠ "" := by
  rintro rfl
  cases shaped

/-- An accepted finding has a well-formed identifier or none. -/
theorem Finding.semanticId_of_modelValidate {raw finding : Finding}
    (accepted : raw.modelValidate = .ok finding) {semanticId : String}
    (known : finding.semanticId = some semanticId) : isSemanticId semanticId := by
  unfold Finding.modelValidate at accepted
  obtain ⟨location, _, remaining⟩ := Except.bind_eq_ok.mp accepted
  obtain ⟨_, _, remaining⟩ := Except.bind_eq_ok.mp remaining
  obtain ⟨_, _, remaining⟩ := Except.bind_eq_ok.mp remaining
  obtain ⟨_, shaped, same⟩ := Except.bind_eq_ok.mp remaining
  cases same
  rw [Except.require_eq_ok] at shaped
  change raw.semanticId = some semanticId at known
  rw [known] at shaped
  exact shaped

/-- The identifiers of an accepted answer are not empty. -/
theorem semanticId_ne_empty {raws findings : List Finding}
    (parsed : raws.mapM Finding.modelValidate = .ok findings) {finding : Finding}
    (member : finding ∈ findings) {semanticId : String}
    (known : finding.semanticId = some semanticId) : semanticId ≠ "" := by
  obtain ⟨raw, _, accepted⟩ := Except.exists_of_mem_mapM parsed finding member
  exact
    ne_empty_of_isSemanticId (Finding.semanticId_of_modelValidate accepted known)

end PeReview
