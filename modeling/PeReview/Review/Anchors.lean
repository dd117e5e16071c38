import PeReview.Review.Lineage
import PeReview.Review.Parsing
import PeReview.Review.Validator

/-!
# Where inline comments land

The validator lets a prior finding through wherever it is anchored, and the lineage
keeps exactly these out of the inline comments.
-/

namespace PeReview

open PeReview.Data

@[simp]
theorem location_ensureSemanticId (digest : Digest) (project : String)
    (finding : Finding) :
    (finding.ensureSemanticId digest project).location = finding.location := by
  unfold Finding.ensureSemanticId
  split <;> rfl

/-- A finding under the identifier of a previous one persists. -/
theorem classifyFinding_of_previous
    (digest : Digest) (project : String) (seen : List String)
    {findings : List Finding} {semanticId : String}
    (previous : semanticId ∈ findings.filterMap Finding.semanticId)
    (nonempty : semanticId ≠ "") :
    classifyFinding (previousById digest project findings []) seen semanticId =
      .persisting := by
  obtain ⟨finding, member, known⟩ := List.mem_filterMap.mp previous
  have key : finding.semanticKey digest project = semanticId :=
    Finding.semanticKey_of_some known nonempty
  have present :
      (Dict.get? (previousById digest project findings [])
        (finding.semanticKey digest project)).isSome :=
    isSome_previousById_of_mem member
  rw [key] at present
  unfold classifyFinding
  rw [if_pos present]

/-- Every finding that is published inline is anchored on a changed line of the
review's context. -/
theorem inline_findings_anchored
    {settings : ReviewSettings} {digest : Digest} {context : ReviewContext}
    {worktree : Worktree} {history : FindingHistory} {project : String}
    {raws findings validated : List Finding} {review : ReviewResult}
    {complete : Bool}
    (parsed : raws.mapM Finding.modelValidate = .ok findings)
    (validates :
      validateAll settings digest context worktree findings = .ok validated)
    (capped : review.findings = validated.take settings.maxFindings)
    (sameBaseline : history.previousFindings = context.previousFindings) :
    ∀ finding ∈
        findingsForInlinePublication
          (reconcileFindingLineage digest project review history complete).review,
      finding.location.anchor ∈ context.changedPlaces := by
  intro published member
  obtain ⟨tracked, unfiltered⟩ := List.mem_filter.mp member
  obtain ⟨kept, isKept, rfl⟩ := List.mem_map.mp tracked
  rw [capped] at isKept
  obtain ⟨finding, isFinding, from_⟩ :=
    exists_of_mem_validateAll validates kept (List.mem_of_mem_take isKept)
  have anchor :
      (trackFinding digest project
          (previousById digest project history.previousFindings [])
          history.seenSemanticIds kept).location.anchor =
        finding.location.anchor := by
    simp only [trackFinding, location_ensureSemanticId]
    exact from_.anchor
  rw [anchor]
  refine from_.placed.resolve_left ?_
  intro previous
  -- A prior finding persists, and what persists is filtered out.
  unfold ReviewContext.isPreviousFinding at previous
  cases known : finding.semanticId with
  | none =>
      rw [known] at previous
      cases previous
  | some semanticId =>
      rw [known] at previous
      have isPrevious :
          semanticId ∈ history.previousFindings.filterMap Finding.semanticId := by
        rw [sameBaseline]
        exact List.contains_iff_mem.mp previous
      have nonempty := semanticId_ne_empty parsed isFinding known
      have key : kept.semanticKey digest project = semanticId :=
        Finding.semanticKey_of_some (from_.semanticId.trans known) nonempty
      have lineage :=
        classifyFinding_of_previous digest project history.seenSemanticIds isPrevious
          nonempty
      simp only [trackFinding, key, lineage] at unfiltered
      exact absurd rfl (of_decide_eq_true unfiltered)

/-- A defect reported on one line, under an identifier or without one. -/
def sampleFinding (line : Nat) (semanticId : Option String) : Finding :=
  { severity := .p1
    category := "correctness"
    title := "unchecked index"
    message := "the index may exceed the buffer"
    impact := "memory corruption"
    evidence := "buffer[index]"
    location := { path := "main.c", startLine := line }
    semanticId }

def sampleDigest : Digest where
  normalizeText text := text
  fingerprint payload := payload.title ++ toString payload.line
  semanticId payload := payload.title

/-- A change of one line, with a finding on it before. -/
def sampleContext : ReviewContext :=
  { project := "firmware"
    changeNumber := 1
    patchsetNumber := 2
    revisionSha := "0123456"
    diff := []
    changedFiles := ["main.c"]
    changedLines := [{ path := "main.c", line := 2, text := "b" }]
    policyText := ""
    repositoryRoot := "/work"
    previousFindings :=
      [sampleFinding 2 (some "0123456789abcdef0123456789abcdef")] }

def sampleWorktree : Worktree where
  resolve path := .ok (some path)
  isFile target := .ok (target == "main.c")
  content target := if target = "main.c" then some [97, 10, 98, 10] else none

/-- A new finding on the changed line, and the prior one on an unchanged line. -/
def sampleAnswer : List Finding :=
  [sampleFinding 2 none,
    sampleFinding 1 (some "0123456789abcdef0123456789abcdef")]

/-- Both findings are kept, and what is published lies on the changed line. -/
theorem inline_findings_anchored_moved :
    ∃ validated,
      validateAll {} sampleDigest sampleContext sampleWorktree sampleAnswer =
          .ok validated ∧
        validated.length = 2 ∧
        ∀ finding ∈
            findingsForInlinePublication
              (reconcileFindingLineage sampleDigest "firmware"
                { summary := "", findings := validated.take 8 }
                { baselinePatchset := some 1
                  previousFindings := sampleContext.previousFindings
                  seenSemanticIds := [] }).review,
          finding.location.anchor ∈ sampleContext.changedPlaces := by
  have parsed : sampleAnswer.mapM Finding.modelValidate = .ok sampleAnswer := by
    decide +kernel
  have both :
      (validateAll {} sampleDigest sampleContext sampleWorktree
        sampleAnswer).toOption.map List.length = some 2 := by
    decide +kernel
  cases validates :
      validateAll {} sampleDigest sampleContext sampleWorktree sampleAnswer with
  | error error =>
      rw [validates] at both
      cases both
  | ok validated =>
      rw [validates] at both
      exact
        ⟨validated, rfl, Option.some.inj both,
          inline_findings_anchored parsed validates rfl rfl⟩

end PeReview
