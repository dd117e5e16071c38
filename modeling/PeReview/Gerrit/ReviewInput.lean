import PeReview.Data.Except
import PeReview.Data.Lines
import PeReview.Data.Utf8
import PeReview.Jobs.Models
import PeReview.Review.Lineage

/-!
# The review input of a publication

`build_review_input` of `gerrit/client.py`.
-/

namespace PeReview

open PeReview.Data

/-- `_finding_section`. -/
def findingSection (label value : String) : String :=
  let quoted :=
    pyJoin "\n" <| (splitlines value).map fun line =>
      if line = "" then ">" else "> " ++ line
  "`" ++ label ++ "`\n\n" ++ quoted

/-- `_finding_message`. -/
def findingMessage (finding : Finding) (language : String) : String :=
  let (impact, evidence, remediation) :=
    if language = "ko-KR" then ("영향", "근거", "수정 방향")
    else ("Impact", "Evidence", "Suggested fix")
  let section_ (label value : String) : List String :=
    if value = "" then [] else [findingSection label value]
  pyJoin "\n\n" <|
    ["### `" ++ finding.severity.value ++ "` " ++ finding.title,
      finding.message] ++
    section_ impact finding.impact ++
    section_ evidence finding.evidence ++
    section_ remediation (finding.remediation.getD "")

/-- `_truncate_utf8_comment`. -/
def truncateUtf8Comment (value : String) (maxBytes : Nat) : String :=
  if value.utf8ByteSize ≤ maxBytes then value
  else
    let marker := "\n\n[truncated by review bot to Gerrit comment size limit]"
    let keep := maxBytes - marker.utf8ByteSize
    String.ofList (takeUtf8 keep value.toList) ++ marker

/-- `build_review_input`. -/
def buildReviewInput (review : ReviewResult) (tag notify : String)
    (maxCommentBytes : Nat) : Except PyError ReviewInput := do
  Except.require (1024 ≤ maxCommentBytes)
    (.value "max_comment_bytes must be at least 1024")
  let language := review.reviewMetadata.outputLanguage.getD "en-US"
  .ok
    { message := truncateUtf8Comment review.summary maxCommentBytes
      tag
      notify
      comments := review.findings.map fun finding =>
        { message :=
            truncateUtf8Comment (findingMessage finding language) maxCommentBytes
          location := finding.location } }

end PeReview
