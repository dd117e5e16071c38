import PeReview.Data.Lines
import PeReview.Review.Lineage

/-!
# Review texts

The summaries the engine writes: what changed, what the review found, and how much
of the change it has covered.
-/

namespace PeReview

open PeReview.Data

/-- `line.strip().lstrip("-•* ").strip()`. -/
def stripBullet (line : String) : String :=
  let bullets := ['-', '•', '*', ' ']
  pyStrip
    (String.ofList
      ((pyStrip line).toList.dropWhile fun char => bullets.contains char))

/-- `re.sub(r"\s+", " ", text)`. -/
def collapseSpaces : List Char → List Char
  | [] => []
  | char :: rest =>
      if isPythonSpace char then
        match rest with
        | [] => [' ']
        | next :: _ =>
            if isPythonSpace next then collapseSpaces rest
            else ' ' :: collapseSpaces rest
      else char :: collapseSpaces rest

/-- One line of the loop of `_merge_change_summaries`: the keys seen and the items
kept, of which there are at most eight. -/
def addSummaryItem (casefold : String → String)
    (state : List String × List String) (line : String) :
    List String × List String :=
  let (seen, items) := state
  let item := stripBullet line
  let key := casefold (String.ofList (collapseSpaces item.toList))
  if 8 ≤ items.length ∨ item = "" ∨ seen.contains key then state
  else (seen ++ [key], items ++ [item])

/-- `_fallback_change_summary`. -/
def fallbackChangeSummary (language : String) (context : ReviewContext) : String :=
  let files := toString context.changedFiles.length
  match language, context.subject.filter fun subject => subject ≠ "" with
  | "ko-KR", some subject =>
      "- Change subject는 `" ++ subject ++ "`이며, 검토 대상 파일 " ++ files ++
        "개가 변경되었습니다."
  | "ko-KR", none => "- 검토 대상 파일 " ++ files ++ "개가 변경되었습니다."
  | _, some subject =>
      "- Change subject is `" ++ subject ++ "`; " ++ files ++
        " reviewable file(s) changed."
  | _, none => "- " ++ files ++ " reviewable file(s) changed."

/-- `_merge_change_summaries`. -/
def mergeChangeSummaries (casefold : String → String) (language : String)
    (summaries : List String) (context : ReviewContext) : String :=
  let lines := summaries.flatMap splitlines
  let (_, items) := lines.foldl (addSummaryItem casefold) ([], [])
  if items = [] then fallbackChangeSummary language context
  else pyJoin "\n" (items.map fun item => "- " ++ item)

/-- `_fallback_review_summary`. -/
def fallbackReviewSummary (language : String) (findings : List Finding) : String :=
  let counts := [Severity.p0, .p1, .p2].filterMap fun severity =>
    let count := findings.countP fun finding => finding.severity = severity
    if count = 0 then none else some (severity.value ++ ": " ++ toString count)
  let total := toString findings.length
  if language = "ko-KR" then
    "검증된 조치 필요 이슈 " ++ total ++ "건이 있습니다 (" ++ pyJoin ", " counts ++
      ")."
  else
    "Found " ++ total ++ " actionable correctness issue(s) (" ++
      pyJoin ", " counts ++ ")."

/-- `_no_findings_summary`. -/
def noFindingsSummary (language : String) (complete : Bool) : String :=
  match decide (language = "ko-KR"), complete with
  | true, false =>
      "검토 또는 검증이 미완료입니다. 현재 게시 가능한 검증 결과는 0건이며, " ++
      "결함이 없다는 판정은 아닙니다."
  | true, true =>
      "추가로 조치가 필요한 펌웨어 동작상 문제는 발견되지 않았습니다."
  | false, false =>
      "Review or verification is incomplete. No verified findings are publishable; " ++
      "this is not a clean verdict."
  | false, true =>
      "No actionable firmware correctness issues were found in this Patch Set."

/-- The match of `\((\d+) bytes\)` at the start of a text. -/
def bytesAt (text : List Char) : Option (List Char) :=
  match text with
  | '(' :: rest =>
      let digits := rest.takeWhile Char.isDigit
      if digits ≠ [] && " bytes)".toList.isPrefixOf (rest.drop digits.length) then
        some digits
      else none
  | _ => none

/-- `re.search(r"\((\d+) bytes\)", text)`. -/
def findBytes (text : List Char) : Option (List Char) :=
  text.tails.findSome? bytesAt

/-- `reason.startswith(start)`. -/
def pyStartsWith (text start : String) : Bool :=
  start.toList.isPrefixOf text.toList

/-- `merge_skip_reason` of the repository manager. -/
def mergeSkipReason : String :=
  "Automated review skipped for this merge commit. Gerrit 3.8 compares merge " ++
  "revisions against its auto-merge base, while a local first-parent diff can " ++
  "produce different changed lines and unsafe inline anchors. No AI findings or review " ++
  "vote were emitted for this Patch Set."

/-- `size_skip_reason` of the repository manager. -/
def sizeSkipReason (maxDiffBytes : Nat) : String :=
  "Automated review skipped because this Patch Set exceeds the configured " ++
  "repository diff safety ceiling (" ++ String.ofList (Nat.toDigits 10 maxDiffBytes) ++
  " bytes). No AI findings or review vote were emitted. Split the Change or raise " ++
  "repos.max_diff_bytes after validating model and host capacity."

/-- `_skip_summary`. -/
def skipSummary (language : String) (reason : Option String) : String :=
  if language ≠ "ko-KR" then
    match reason.filter fun reason => reason ≠ "" with
    | some reason => reason
    | none =>
        "No reviewable text changes were found after generated/binary filtering."
  else
    match reason with
    | none =>
        "generated/binary filtering 후 리뷰할 텍스트 변경이 없어 자동 리뷰를 " ++
        "건너뛰었습니다. " ++
        "이 Patch Set에는 AI finding이나 review vote를 생성하지 않았습니다."
    | some reason =>
        if pyStartsWith reason "Automated review skipped for this merge commit." then
          "이 Patch Set은 merge commit이므로 자동 리뷰를 건너뛰었습니다. Gerrit 3.8은 merge " ++
          "revision을 auto-merge base와 비교하므로 로컬 first-parent diff를 사용하면 changed " ++
          "line과 inline anchor가 달라질 수 있습니다. 이 Patch Set에는 AI finding이나 review " ++
          "vote를 생성하지 않았습니다."
        else if
            pyStartsWith reason
              "Automated review skipped because this Patch Set exceeds" then
          let limit :=
            match findBytes reason.toList with
            | some digits => " (" ++ String.ofList digits ++ " bytes)"
            | none => ""
          "이 Patch Set이 설정된 repository diff 안전 한도를 초과하여 자동 리뷰를 " ++
          "건너뛰었습니다" ++ limit ++
          ". AI finding이나 review vote를 생성하지 않았습니다. " ++
          "Change를 " ++
          "분할하거나 model/host 용량을 검증한 뒤 repos.max_diff_bytes를 조정하십시오."
        else reason

/-- `_quote_summary`. -/
def quoteSummary (text : String) : String :=
  pyJoin "\n" ((splitlines text).map fun line =>
    if line = "" then ">" else "> " ++ line)

/-- `_coverage_summary_ko` and `_coverage_summary_en`. -/
def coverageSummary (language : String) (metadata : BudgetMetadata) : String :=
  let coverage := metadata.coverage
  let chunks :=
    toString coverage.candidateChunksReviewed ++ "/" ++
      toString coverage.candidateChunksTotal
  let files :=
    toString coverage.reviewableFilesFullyReviewed ++ "/" ++
      toString coverage.reviewableFilesTotal
  let reasons :=
    if metadata.stopReasons = [] then "verification incomplete"
    else pyJoin ", " metadata.stopReasons
  if language = "ko-KR" then
    "\n\n### 검토 범위\n\n" ++
    "- `diff chunk` " ++ chunks ++ "개 검토\n" ++
    "- `변경 파일` " ++ files ++ "개 전체 범위 처리\n" ++
    "- `finding 검증` " ++
      (if metadata.verificationComplete then "완료" else "미완료") ++ "\n" ++
    "- `제한` `" ++ reasons ++
      "` — 미검토 범위에는 추가 이슈가 있을 수 있습니다."
  else
    "\n\n### Review coverage\n\n" ++
    "- `Diff chunks` " ++ chunks ++ " reviewed\n" ++
    "- `Files fully covered` " ++ files ++ "\n" ++
    "- `Finding verification` " ++
      (if metadata.verificationComplete then "complete" else "incomplete") ++ "\n" ++
    "- `Limit` `" ++ reasons ++
      "` — unreviewed scope may contain additional issues."

/-- `_render_summary`. -/
def renderSummary (language changeSummary reviewSummary : String)
    (metadata : BudgetMetadata) : String :=
  let headings :=
    if language = "ko-KR" then ("### 변경 요약", "### 리뷰 결과")
    else ("### Change summary", "### Review result")
  headings.1 ++ "\n\n" ++ changeSummary ++ "\n\n" ++ headings.2 ++ "\n\n" ++
    quoteSummary reviewSummary ++
    if metadata.complete then "" else coverageSummary language metadata

end PeReview
