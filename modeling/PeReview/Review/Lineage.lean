import PeReview.Data.Dict
import PeReview.Domain

/-!
# Finding lineage

`review/lineage.py`: the findings of a review are classified against the history
of the change, and prior findings it no longer contains are resolved when the
review is complete.
-/

namespace PeReview

open PeReview.Data

/-- `separator.join(parts)`. -/
def pyJoin (separator : String) (parts : List String) : String :=
  String.intercalate separator parts

/-- `LineageReconciliation`. -/
structure LineageReconciliation where
  review : ReviewResult
  resolvedFindings : List Finding
  newCount : Nat
  persistingCount : Nat
  reopenedCount : Nat
  deriving DecidableEq, Repr

/-- The previous findings by semantic identifier; a later one replaces an
earlier one in place. -/
def previousById (digest : Digest) (project : String) :
    List Finding → Dict String Finding → Dict String Finding
  | [], table => table
  | finding :: rest, table =>
      let finding := finding.ensureSemanticId digest project
      previousById digest project rest
        (Dict.set table (finding.semanticKey digest project) finding)

def classifyFinding (known : Dict String Finding) (seen : List String)
    (semanticId : String) : FindingLineage :=
  if (Dict.get? known semanticId).isSome then .persisting
  else if seen.contains semanticId then .reopened
  else .new

def trackFinding (digest : Digest) (project : String)
    (known : Dict String Finding) (seen : List String) (finding : Finding) :
    Finding :=
  { finding.ensureSemanticId digest project with
    lineage :=
      some (classifyFinding known seen (finding.semanticKey digest project)) }

/-- The first ten resolved findings and how many there are beyond them. -/
def resolvedLines (more : Nat → String) (resolved : List Finding) :
    List String :=
  (resolved.take 10).map
      (fun finding =>
        "- `" ++ finding.severity.value ++ "` " ++ finding.title ++ " (`" ++
          finding.location.path ++ "`)") ++
    if 10 < resolved.length then [more (resolved.length - 10)] else []

/-- `_tracking_summary`. -/
def trackingSummary (original : String) (baselinePatchset : Option Int)
    (newCount persistingCount reopenedCount : Nat) (resolved : List Finding)
    (complete : Bool) (language : String) : String :=
  let sections :=
    if language = "ko-KR" then
      let baseline :=
        match baselinePatchset with
        | some number => s!"PS {number}"
        | none => "이전 게시 기준 없음"
      let tracking :=
        ["### Patch Set 추적", "", "- `기준` " ++ baseline,
          s!"- `신규` {newCount}건", s!"- `지속` {persistingCount}건",
          s!"- `재발` {reopenedCount}건"] ++
        if complete then [s!"- `해결` {resolved.length}건"]
        else
          ["- `상태` 부분 검토",
            "- 미검토된 이전 이슈는 해결된 것으로 판정하지 않았습니다."]
      [pyStrip original, pyJoin "\n" tracking] ++
        if resolved.isEmpty then []
        else
          ["#### 해결된 이슈\n\n" ++
            pyJoin "\n" (resolvedLines (fun more => s!"- 외 {more}건") resolved)]
    else
      let baseline :=
        match baselinePatchset with
        | some number => s!"PS {number}"
        | none => "no published baseline"
      let tracking :=
        ["### Patch Set tracking", "", "- `Baseline` " ++ baseline,
          s!"- `New` {newCount}", s!"- `Persisting` {persistingCount}",
          s!"- `Reopened` {reopenedCount}"] ++
        if complete then [s!"- `Fixed` {resolved.length}"]
        else
          ["- `Status` partial review",
            "- Unreviewed prior findings were not classified as fixed."]
      [pyStrip original, pyJoin "\n" tracking] ++
        if resolved.isEmpty then []
        else
          ["#### Fixed findings\n\n" ++
            pyJoin "\n"
              (resolvedLines (fun more => s!"- ... and {more} more") resolved)]
  pyJoin "\n\n" (sections.filter fun section_ => section_ ≠ "")

/-- `reconcile_finding_lineage`. -/
def reconcileFindingLineage (digest : Digest) (project : String)
    (review : ReviewResult) (history : FindingHistory)
    (complete : Bool := true) : LineageReconciliation :=
  let known := previousById digest project history.previousFindings []
  let findings :=
    review.findings.map
      (trackFinding digest project known history.seenSemanticIds)
  let currentIds := review.findings.map fun finding =>
    finding.semanticKey digest project
  let count (lineage : FindingLineage) : Nat :=
    findings.countP fun finding => finding.lineage = some lineage
  let resolved :=
    if complete then
      (known.filter fun entry => !currentIds.contains entry.1).map Prod.snd
    else []
  let tracking : FindingTracking :=
    { baselinePatchset := history.baselinePatchset
      complete
      new := count .new
      persisting := count .persisting
      reopened := count .reopened
      resolved := resolved.length
      resolvedSemanticIds := resolved.filterMap Finding.semanticId }
  { review :=
      { review with
        findings
        summary :=
          trackingSummary review.summary history.baselinePatchset
            (count .new) (count .persisting) (count .reopened) resolved complete
            (review.reviewMetadata.outputLanguage.getD "en-US")
        reviewMetadata :=
          { review.reviewMetadata with findingLineage := some tracking } }
    resolvedFindings := resolved
    newCount := count .new
    persistingCount := count .persisting
    reopenedCount := count .reopened }

/-- `findings_for_inline_publication`. -/
def findingsForInlinePublication (review : ReviewResult) : List Finding :=
  review.findings.filter fun finding => finding.lineage ≠ some .persisting

section Table

variable {digest : Digest} {project : String}

/-- Identifying a finding only names it. -/
theorem ensureSemanticId_eq {finding : Finding} :
    finding.ensureSemanticId digest project =
      { finding with semanticId := some (finding.semanticKey digest project) } := by
  have identified := Finding.ensureSemanticId_semanticId digest project finding
  unfold Finding.ensureSemanticId at identified ⊢
  split
  · rename_i present
    rw [if_pos present] at identified
    rw [← identified]
  · rename_i absent
    rw [if_neg absent] at identified
    rw [← identified]

/-- Identifying a finding does not change how it is identified. -/
theorem semanticKey_ensureSemanticId (finding : Finding) :
    (finding.ensureSemanticId digest project).semanticKey digest project =
      finding.semanticKey digest project := by
  by_cases present : truthy finding.semanticId
  · simp only [Finding.ensureSemanticId, present, if_true]
  · simp only [Finding.semanticKey, Finding.ensureSemanticId, present,
      Bool.false_eq_true, if_false]
    split <;> rfl

/-- The table of previous findings keeps what it has. -/
theorem isSome_previousById {table : Dict String Finding} {key : String}
    (findings : List Finding) (known : (Dict.get? table key).isSome) :
    (Dict.get? (previousById digest project findings table) key).isSome := by
  induction findings generalizing table with
  | nil =>
      exact known
  | cons finding rest inductionHypothesis =>
      refine inductionHypothesis ?_
      rw [Dict.get?_set]
      split
      · rfl
      · exact known

/-- Every previous finding is in the table. -/
theorem isSome_previousById_of_mem {findings : List Finding}
    {table : Dict String Finding} {finding : Finding} (member : finding ∈ findings) :
    (Dict.get? (previousById digest project findings table)
      (finding.semanticKey digest project)).isSome := by
  induction findings generalizing table with
  | nil =>
      cases member
  | cons first rest inductionHypothesis =>
      rcases List.mem_cons.mp member with rfl | later
      · refine isSome_previousById rest ?_
        rw [semanticKey_ensureSemanticId, Dict.get?_set_self]
        rfl
      · exact inductionHypothesis later

/-- The table has no other findings than those it is made of. -/
theorem isSome_previousById_iff {findings : List Finding} {table : Dict String Finding}
    {key : String} :
    (Dict.get? (previousById digest project findings table) key).isSome ↔
      (Dict.get? table key).isSome ∨
        ∃ finding ∈ findings, finding.semanticKey digest project = key := by
  induction findings generalizing table with
  | nil =>
      simp [previousById]
  | cons finding rest inductionHypothesis =>
      rw [previousById, inductionHypothesis, semanticKey_ensureSemanticId, Dict.get?_set]
      by_cases same : finding.semanticKey digest project = key
      · simp [same]
      · simp [same]

/-- The table has every finding under its identifier. -/
theorem semanticId_of_mem_previousById {findings : List Finding}
    {table : Dict String Finding}
    (keyed : ∀ entry ∈ table, entry.2.semanticId = some entry.1) :
    ∀ entry ∈ previousById digest project findings table,
      entry.2.semanticId = some entry.1 := by
  induction findings generalizing table with
  | nil =>
      exact keyed
  | cons finding rest inductionHypothesis =>
      refine inductionHypothesis ?_
      intro entry member
      rcases Dict.mem_set member with old | rfl
      · exact keyed entry old
      · dsimp only
        rw [semanticKey_ensureSemanticId]
        exact Finding.ensureSemanticId_semanticId digest project finding

/-- A resolved finding has an identifier that no finding of a complete review has. -/
theorem of_mem_resolvedFindings {review : ReviewResult} {history : FindingHistory}
    {complete : Bool} {resolved : Finding}
    (member : resolved ∈
      (reconcileFindingLineage digest project review history
        complete).resolvedFindings) :
    complete = true ∧ ∃ semanticId, resolved.semanticId = some semanticId ∧
      ∀ finding ∈ review.findings,
        finding.semanticKey digest project ≠ semanticId := by
  simp only [reconcileFindingLineage] at member
  split at member
  · rename_i whole
    obtain ⟨entry, kept, rfl⟩ := List.mem_map.mp member
    obtain ⟨known, missing⟩ := List.mem_filter.mp kept
    have keyed : entry.2.semanticId = some entry.1 :=
      semanticId_of_mem_previousById (fun _ nothing => by cases nothing) entry known
    refine ⟨whole, entry.1, keyed, ?_⟩
    simpa using missing
  · cases member

end Table

end PeReview
