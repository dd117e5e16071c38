import PeReview.Data.Ranks
import PeReview.Jobs.Columns
import PeReview.Review.FindingIdentity
import PeReview.Service.Review

/-!
# Storable results

Which answers of the model become a result that `save_review_result_and_mark_ready`
stores.
-/

namespace PeReview

open PeReview.Data

/-- The finding is within the bounds of the columns it is stored in. -/
def Finding.FitsColumns (finding : Finding) : Bool :=
  fitsVarchar 64 finding.fingerprintText && fitsVarchar 128 finding.category &&
    [finding.title, finding.message, finding.impact, finding.evidence,
      finding.location.path].all isStorable &&
    finding.remediation.all isStorable &&
    [finding.location.startLine, finding.location.startCharacter].all fitsInteger &&
    finding.location.endLine.all fitsInteger &&
    finding.location.endCharacter.all fitsInteger

/-- The identifiers are SHA-256 digests, cut to 32 hexadecimal digits. -/
structure Digest.Hexadecimal (digest : Digest) : Prop where
  fingerprint : ∀ payload, isSemanticId (digest.fingerprint payload) = true
  semanticId : ∀ payload, isSemanticId (digest.semanticId payload) = true

/-- The finding of an earlier review can be named in a text that is stored. -/
structure Finding.Storable (finding : Finding) : Prop where
  title : isStorable finding.title = true
  path : isStorable finding.location.path = true
  semanticId : finding.semanticId.all isStorable = true

/-- The findings in the database have been flushed. -/
def Store.Flushed (store : Store) : Prop :=
  ∀ job ∈ store.jobs, ∀ result ∈ job.result, ∀ row ∈ result.findings,
    row.checkColumns acceptsVarchar = true

/-- The metadata of a result, without a tracking that is replaced. -/
def ReviewMetadata.ownMetadata (metadata : ReviewMetadata) : ReviewMetadata :=
  if metadata.lineageComplete.getD true || metadata.reviewBudget.isSome then
    { metadata with findingLineage := none }
  else metadata

/-- The columns of a result but its findings take what it says. -/
def ReviewResult.isStorable (review : ReviewResult) : Bool :=
  ReviewResultRow.checkColumns acceptsVarchar
    { summary := review.summary
      model := review.model
      inputTokens := review.inputTokens
      outputTokens := review.outputTokens
      reviewMetadata := review.reviewMetadata.ownMetadata
      findings := [] }

section Answers

variable (settings : ReviewSettings) (digest : Digest) (context : ReviewContext)
  (worktree : Worktree)

/-- What the checks keep of the findings of an answer, each fingerprint once. -/
def keptFindings (findings : List Finding) : List Finding :=
  firstsBy Finding.fingerprintText []
    (findings.filterMap (keptFinding settings digest context worktree))

/-- The result that is promoted, with the findings the validator accepted. -/
def promotedReview (project : String) (history : FindingHistory) (review : ReviewResult)
    (validated : List Finding) : ReviewResult :=
  reconcileReview digest project history
    { review with findings := validated.take settings.maxFindings }

/-- The path of a finding names a place, within the worktree or not, and it can be told
whether a file of the revision is there. -/
def Worktree.LooksUp (finding : Finding) : Prop :=
  ∃ place, worktree.resolve finding.location.path = .ok place ∧
    (finding.location.side = .revision →
      ∀ target ∈ place, ∃ isFile, worktree.isFile target = .ok isFile)

/-- The paths in scope can be looked up, the findings of the highest ranks are within their
columns, and so is the rest of the result. -/
structure StorableAnswer (findings : List Finding) (review : ReviewResult) : Prop where
  paths : ∀ finding ∈ findings, outOfScope settings context finding = false →
    worktree.LooksUp finding
  findings : ∀ kept ∈ keptFindings settings digest context worktree findings,
    rankOf Finding.Before (keptFindings settings digest context worktree findings) kept <
        settings.maxFindings →
      kept.FitsColumns = true
  result : review.isStorable = true

/-- The findings are validated, their rows are within the bounds of their columns, and the
result is saved. -/
def StoresAnswer (history : FindingHistory) (store : Store) (now : Time) (id : JobId)
    (project : String) (worker : WorkerId) (findings : List Finding)
    (review : ReviewResult) : Prop :=
  ∃ validated saved record,
    validateAll settings digest context worktree findings = .ok validated ∧
      (∀ row ∈ findingRows digest project 0 []
        (promotedReview settings digest project history review validated).findings,
          row.fits = true) ∧
      store.flushReviewResult digest now id
          (promotedReview settings digest project history review validated) worker =
        .ok (saved, record) ∧
      record.state = .readyToPublish

end Answers

section Order

instance : Std.Total Finding.Before where
  total first second := by
    unfold Finding.Before
    rcases Nat.lt_trichotomy first.severity.order second.severity.order with
      less | same | greater
    · exact Or.inl (Or.inl less)
    · have severity : first.severity = second.severity := by
        revert same
        cases first.severity <;> cases second.severity <;> decide
      rcases le_total second.confidence first.confidence with below | above
      · exact Or.inl (Or.inr ⟨severity, below⟩)
      · exact Or.inr (Or.inr ⟨severity.symm, above⟩)
    · exact Or.inr (Or.inl greater)

instance : IsTrans Finding Finding.Before where
  trans first second third left right := by
    unfold Finding.Before at *
    rcases left with less | ⟨same, below⟩
    · rcases right with further | ⟨equal, _⟩
      · exact Or.inl (Nat.lt_trans less further)
      · rw [equal] at less
        exact Or.inl less
    · rw [same]
      rcases right with further | ⟨equal, deeper⟩
      · exact Or.inl further
      · exact Or.inr ⟨equal, le_trans deeper below⟩

end Order

section Validated

variable {settings : ReviewSettings} {digest : Digest} {context : ReviewContext}
  {worktree : Worktree} {findings validated : List Finding} {finding : Finding}

theorem placeFinding_returns_iff :
    (∃ place, placeFinding context worktree finding = .ok place) ↔
      worktree.LooksUp finding := by
  unfold placeFinding Worktree.LooksUp
  cases worktree.resolve finding.location.path with
  | error raised =>
      simp
  | ok place =>
      cases place with
      | none =>
          simp
      | some target =>
          cases finding.location.side with
          | parent =>
              simp
          | revision =>
              have inFile : (∃ place, placeInFile worktree target finding.location =
                  .ok place) ↔ ∃ isFile, worktree.isFile target = .ok isFile := by
                unfold placeInFile
                cases worktree.isFile target with
                | error raised => simp
                | ok isFile =>
                    cases isFile with
                    | false => simp
                    | true =>
                        dsimp only
                        split
                        · simp
                        · split <;> simp
              simpa using inFile

/-- A check raises where a path cannot be looked up. -/
theorem check_returns_iff :
    (∃ kept, checkFinding settings digest context worktree finding = .ok kept) ↔
      (outOfScope settings context finding = false → worktree.LooksUp finding) := by
  rw [← @placeFinding_returns_iff context worktree finding]
  unfold checkFinding
  cases outOfScope settings context finding with
  | true =>
      simp
  | false =>
      cases placeFinding context worktree finding with
      | error raised => simp
      | ok place =>
          cases place with
          | none => simp
          | some location =>
              dsimp only
              rw [if_neg Bool.false_ne_true]
              split <;> simp

theorem checkable_iff :
    Checkable settings digest context worktree findings ↔
      ∀ finding ∈ findings, outOfScope settings context finding = false →
        worktree.LooksUp finding :=
  forall₂_congr fun _ _ => check_returns_iff

theorem validateAll_eq (checkable : Checkable settings digest context worktree findings) :
    validateAll settings digest context worktree findings =
      .ok (sortFindings (keptFindings settings digest context worktree findings)) := by
  unfold validateAll
  rw [acceptFindings_eq checkable]
  rfl

theorem checkable_of_validateAll
    (returned : validateAll settings digest context worktree findings = .ok validated) :
    Checkable settings digest context worktree findings := by
  unfold validateAll at returned
  split at returned
  · cases returned
  · rename_i accepted ran
    exact checkable_of_accepted ran

end Validated

section Identified

variable {digest : Digest} {project : String} {finding : Finding}

theorem isStorable_of_isSemanticId {text : String} (shaped : isSemanticId text = true) :
    isStorable text = true := by
  unfold isSemanticId at shaped
  rw [Bool.and_eq_true, List.all_eq_true] at shaped
  rw [isStorable_iff]
  intro member
  have hexadecimal := shaped.2 _ member
  revert hexadecimal
  decide

theorem fitsVarchar_of_isSemanticId {text : String} (shaped : isSemanticId text = true) :
    fitsVarchar 64 text = true := by
  have storable := isStorable_of_isSemanticId shaped
  unfold isSemanticId at shaped
  rw [Bool.and_eq_true, decide_eq_true_eq, String.length_toList] at shaped
  unfold fitsVarchar
  rw [storable, shaped.1]
  rfl

/-- The identifier of a finding of the model has the form of a digest. -/
theorem isSemanticId_semanticKey (hexadecimal : digest.Hexadecimal)
    (parsed : finding.semanticId.all isSemanticId = true) :
    isSemanticId (finding.semanticKey digest project) = true := by
  unfold Finding.semanticKey Finding.ensureSemanticId
  split
  · rename_i present
    cases known : finding.semanticId with
    | none =>
        rw [known] at present
        cases present
    | some value =>
        rw [known] at parsed
        exact parsed
  · exact hexadecimal.semanticId _

/-- The identifier of an earlier finding is stored. -/
theorem isStorable_semanticKey (hexadecimal : digest.Hexadecimal)
    (storable : finding.semanticId.all isStorable = true) :
    isStorable (finding.semanticKey digest project) = true := by
  unfold Finding.semanticKey Finding.ensureSemanticId
  split
  · rename_i present
    cases known : finding.semanticId with
    | none =>
        rw [known] at present
        cases present
    | some value =>
        rw [known] at storable
        exact storable
  · exact isStorable_of_isSemanticId (hexadecimal.semanticId _)

end Identified

section Tracking

variable {digest : Digest} {project : String} {history : FindingHistory}
  {findings resolved : List Finding} {table : Dict String Finding}

/-- The table of earlier findings has those it is made of. -/
theorem storable_of_mem_previousById (hexadecimal : digest.Hexadecimal)
    (storable : ∀ finding ∈ findings, finding.Storable)
    (before : ∀ entry ∈ table, entry.2.Storable) :
    ∀ entry ∈ previousById digest project findings table, entry.2.Storable := by
  induction findings generalizing table with
  | nil =>
      exact before
  | cons finding rest inductionHypothesis =>
      obtain ⟨first, others⟩ := List.forall_mem_cons.mp storable
      apply inductionHypothesis others
      intro entry member
      rcases Dict.mem_set member with old | new
      · exact before entry old
      · rw [new, ensureSemanticId_eq]
        exact ⟨first.title, first.path, isStorable_semanticKey hexadecimal first.semanticId⟩

theorem isStorable_resolvedLines {more : Nat → String}
    (storable : ∀ finding ∈ resolved, finding.Storable)
    (plain : ∀ number, isStorable (more number) = true) :
    (resolvedLines more resolved).all isStorable = true := by
  unfold resolvedLines
  rw [List.all_append, Bool.and_eq_true]
  constructor
  · rw [List.all_map, List.all_eq_true]
    intro finding member
    have kept := storable finding (List.mem_of_mem_take member)
    have severity : isStorable finding.severity.value = true := by
      cases finding.severity <;> decide
    simp only [Function.comp_apply, isStorable_append, kept.title, kept.path, severity]
    decide
  · split
    · simp [plain]
    · rfl

theorem all_isStorable_sections {first second : String} {others : List String}
    (isSecond : isStorable second = true) (areOthers : others.all isStorable = true) :
    ([first, second] ++ others).all isStorable = isStorable first := by
  rw [List.all_append, areOthers, Bool.and_true, List.all_cons, List.all_cons, isSecond]
  simp

/-- The remarks on the earlier findings add nothing that cannot be stored. -/
theorem isStorable_trackingSummary {original language : String} {baseline : Option Int}
    {newCount persistingCount reopenedCount : Nat} {complete : Bool}
    (storable : ∀ finding ∈ resolved, finding.Storable) :
    isStorable
        (trackingSummary original baseline newCount persistingCount reopenedCount resolved
          complete language) = isStorable original := by
  have text : ∀ value : String, toString value = value := fun _ => rfl
  have korean : (resolvedLines (fun more => s!"- 외 {more}건") resolved).all isStorable = true := by
    apply isStorable_resolvedLines storable
    intro number
    simp only [text, isStorable_append, isStorable_toString_nat]
    decide
  have english :
      (resolvedLines (fun more => s!"- ... and {more} more") resolved).all isStorable = true := by
    apply isStorable_resolvedLines storable
    intro number
    simp only [text, isStorable_append, isStorable_toString_nat]
    decide
  have feed : isStorable "\n" = true := by decide
  have feeds : isStorable "\n\n" = true := by decide
  unfold trackingSummary
  dsimp only
  rw [isStorable_pyJoin feeds, all_isStorable_filter]
  split
  · apply (all_isStorable_sections _ _).trans isStorable_pyStrip
    · rw [isStorable_pyJoin feed, List.all_append, Bool.and_eq_true]
      constructor
      · cases baseline <;>
          simp only [List.all_cons, text, isStorable_append, isStorable_toString_nat,
            isStorable_toString_int] <;>
          decide
      · split
        · simp only [List.all_cons, text, isStorable_append, isStorable_toString_nat]
          decide
        · decide
    · split
      · rfl
      · rw [List.all_cons, isStorable_append, isStorable_pyJoin feed, korean]
        decide
  · apply (all_isStorable_sections _ _).trans isStorable_pyStrip
    · rw [isStorable_pyJoin feed, List.all_append, Bool.and_eq_true]
      constructor
      · cases baseline <;>
          simp only [List.all_cons, text, isStorable_append, isStorable_toString_nat,
            isStorable_toString_int] <;>
          decide
      · split
        · simp only [List.all_cons, text, isStorable_append, isStorable_toString_nat]
          decide
        · decide
    · split
      · rfl
      · rw [List.all_cons, isStorable_append, isStorable_pyJoin feed, english]
        decide

end Tracking

section Rows

variable {digest : Digest} {project : String} {finding : Finding} {findings : List Finding}
  {ordinal : Nat} {seen : List String}

/-- What the checks see to: a finding with a fingerprint, a confidence and a well-formed
identifier. -/
structure Finding.Checked (digest : Digest) (project : String) (finding : Finding) :
    Prop where
  fingerprint : truthy finding.fingerprint = true
  confidence : 0 ≤ finding.confidence ∧ finding.confidence ≤ 1
  semanticId : isSemanticId (finding.semanticKey digest project) = true

def checkedRow (digest : Digest) (project : String) (ordinal : Nat) (finding : Finding) :
    ReviewFinding :=
  .ofFinding ordinal
    { finding with semanticId := some (finding.semanticKey digest project) }

theorem fits_checkedRow (checked : finding.Checked digest project)
    (small : ordinal < 2147483648) :
    (checkedRow digest project ordinal finding).fits = finding.FitsColumns := by
  have semanticId := fitsVarchar_of_isSemanticId checked.semanticId
  have low := checked.confidence.1
  have high := checked.confidence.2
  unfold checkedRow ReviewFinding.fits ReviewFinding.checkColumns Finding.FitsColumns
  have ordered : fitsInteger ordinal = true := decide_eq_true small
  simp only [ReviewFinding.ofFinding, Option.getD_some, semanticId, List.all_cons, List.all_nil,
    Bool.and_true, Bool.true_and, ordered, low, high, decide_true]
  rfl

theorem findingRows_cons (checked : finding.Checked digest project)
    (fresh : finding.fingerprintText ∉ seen) :
    findingRows digest project ordinal seen (finding :: findings) =
      checkedRow digest project ordinal finding ::
        findingRows digest project (ordinal + 1) (finding.fingerprintText :: seen)
          findings := by
  have own : finding.ensureFingerprint digest project = finding := by
    unfold Finding.ensureFingerprint
    rw [if_pos checked.fingerprint]
  have absent : ¬seen.contains finding.fingerprintText = true := by
    rw [List.contains_iff_mem]
    exact fresh
  rw [findingRows, own, ensureSemanticId_eq]
  exact if_neg absent

/-- Findings with fingerprints of their own have a row each. -/
theorem findingRows_checked (checked : ∀ finding ∈ findings, finding.Checked digest project)
    (distinct : (findings.map Finding.fingerprintText).Nodup)
    (fresh : ∀ finding ∈ findings, finding.fingerprintText ∉ seen) :
    findingRows digest project ordinal seen findings =
      findings.mapIdx fun index finding =>
        checkedRow digest project (ordinal + index) finding := by
  induction findings generalizing ordinal seen with
  | nil =>
      rfl
  | cons finding rest inductionHypothesis =>
      rw [List.forall_mem_cons] at checked fresh
      rw [List.map_cons, List.nodup_cons] at distinct
      have later : ∀ other ∈ rest, other.fingerprintText ∉ finding.fingerprintText :: seen := by
        intro other member
        rw [List.mem_cons, not_or]
        constructor
        · intro same
          apply distinct.1
          rw [← same]
          exact List.mem_map_of_mem member
        · exact fresh.2 other member
      rw [findingRows_cons checked.1 fresh.1, inductionHypothesis checked.2 distinct.2 later,
        List.mapIdx_cons]
      simp only [Nat.add_assoc, Nat.add_comm 1, Nat.add_zero]

theorem fits_findingRows (checked : ∀ finding ∈ findings, finding.Checked digest project)
    (distinct : (findings.map Finding.fingerprintText).Nodup)
    (few : findings.length ≤ 2147483648) :
    (∀ row ∈ findingRows digest project 0 [] findings, row.fits = true) ↔
      ∀ finding ∈ findings, finding.FitsColumns = true := by
  rw [findingRows_checked checked distinct fun _ _ => List.not_mem_nil]
  constructor
  · intro fits finding member
    obtain ⟨index, inside, same⟩ := List.getElem_of_mem member
    rw [← same, ← fits_checkedRow (checked _ (List.getElem_mem inside))
      (Nat.lt_of_lt_of_le inside few)]
    apply fits
    rw [List.mem_mapIdx]
    exact ⟨index, inside, by rw [Nat.zero_add]⟩
  · intro fits row member
    obtain ⟨index, inside, same⟩ := List.mem_mapIdx.mp member
    rw [← same, Nat.zero_add, fits_checkedRow (checked _ (List.getElem_mem inside))
      (Nat.lt_of_lt_of_le inside few)]
    exact fits _ (List.getElem_mem inside)

theorem map_fingerprint_findingRows
    (checked : ∀ finding ∈ findings, finding.Checked digest project)
    (distinct : (findings.map Finding.fingerprintText).Nodup) :
    (findingRows digest project 0 [] findings).map ReviewFinding.fingerprint =
      findings.map Finding.fingerprintText := by
  rw [findingRows_checked checked distinct fun _ _ => List.not_mem_nil]
  apply List.ext_getElem
  · simp
  · intro index _ _
    rw [List.getElem_map, List.getElem_map, List.getElem_mapIdx]
    rfl

end Rows

section Promoted

variable {settings : ReviewSettings} {digest : Digest} {context : ReviewContext}
  {worktree : Worktree} {raws findings : List Finding} {finding kept : Finding}
  {project : String} {history : FindingHistory} {review : ReviewResult} {limit : Nat}

theorem confidence_of_modelValidate {raw : Finding}
    (accepted : raw.modelValidate = .ok finding) :
    0 ≤ finding.confidence ∧ finding.confidence ≤ 1 := by
  unfold Finding.modelValidate at accepted
  obtain ⟨_, _, remaining⟩ := Except.bind_eq_ok.mp accepted
  obtain ⟨_, low, remaining⟩ := Except.bind_eq_ok.mp remaining
  obtain ⟨_, high, remaining⟩ := Except.bind_eq_ok.mp remaining
  obtain ⟨_, _, same⟩ := Except.bind_eq_ok.mp remaining
  cases same
  rw [Except.require_eq_ok, decide_eq_true_eq] at low high
  exact ⟨low, high⟩

/-- What the checks keep of a finding of the model. -/
theorem checked_of_checkFinding (hexadecimal : digest.Hexadecimal)
    (parsed : finding.semanticId.all isSemanticId = true)
    (unit : 0 ≤ finding.confidence ∧ finding.confidence ≤ 1)
    (keeps : checkFinding settings digest context worktree finding = .ok (some kept)) :
    kept.Checked digest project := by
  have same := keptFrom_checkFinding keeps
  have identified : kept.semanticId.all isSemanticId = true := by
    rw [same.semanticId]
    exact parsed
  unfold checkFinding at keeps
  split at keeps
  · cases keeps
  · split at keeps
    · cases keeps
    · cases keeps
    · rename_i location placed
      split at keeps
      · cases keeps
      · have written := Option.some.inj (Except.ok.inj keeps)
        refine ⟨?_, ?_, isSemanticId_semanticKey hexadecimal identified⟩
        · rw [← written]
          unfold Finding.ensureFingerprint
          split
          · assumption
          · exact decide_eq_true (ne_empty_of_isSemanticId (hexadecimal.fingerprint _))
        · rw [← written]
          unfold Finding.ensureFingerprint
          split
          · exact unit
          · exact unit

theorem checked_of_mem_keptFindings (hexadecimal : digest.Hexadecimal)
    (parsed : raws.mapM Finding.modelValidate = .ok findings)
    (member : kept ∈ keptFindings settings digest context worktree findings) :
    kept.Checked digest project := by
  obtain ⟨finding, isFinding, keeps⟩ := List.mem_filterMap.mp (mem_of_mem_firstsBy member)
  obtain ⟨raw, _, accepted⟩ := Except.exists_of_mem_mapM parsed finding isFinding
  apply checked_of_checkFinding hexadecimal _ (confidence_of_modelValidate accepted)
    (keptFinding_eq_some.mp keeps)
  cases known : finding.semanticId with
  | none => rfl
  | some semanticId => exact Finding.semanticId_of_modelValidate accepted known

/-- The findings that are kept have fingerprints of their own. -/
theorem nodup_keptFindings :
    ((keptFindings settings digest context worktree findings).map
      Finding.fingerprintText).Nodup :=
  (firstsBy_agree_iff.mpr fun _ _ _ _ => Iff.rfl).2

/-- What the tracking leaves of a finding: its columns and its fingerprint. -/
structure Finding.TracksAs (digest : Digest) (project : String) (finding tracked : Finding) :
    Prop where
  columns : tracked.FitsColumns = finding.FitsColumns
  fingerprint : tracked.fingerprintText = finding.fingerprintText
  checked : finding.Checked digest project → tracked.Checked digest project

theorem tracksAs_trackFinding {known : Dict String Finding} {seen : List String} :
    finding.TracksAs digest project (trackFinding digest project known seen finding) := by
  unfold trackFinding
  rw [ensureSemanticId_eq]
  refine ⟨rfl, rfl, ?_⟩
  intro checked
  refine ⟨checked.fingerprint, checked.confidence, ?_⟩
  rw [Finding.semanticKey_of_some rfl (ne_empty_of_isSemanticId checked.semanticId)]
  exact checked.semanticId

/-- The findings that are promoted are those of the highest ranks, tracked. -/
theorem exists_tracked {validated : List Finding} :
    ∃ track : Finding → Finding,
      (promotedReview settings digest project history review validated).findings =
          (validated.take settings.maxFindings).map track ∧
        ∀ finding : Finding, finding.TracksAs digest project (track finding) := by
  unfold promotedReview reconcileReview
  dsimp only
  split
  · exact ⟨_, rfl, fun _ => tracksAs_trackFinding⟩
  · exact ⟨id, (List.map_id _).symm, fun _ => ⟨rfl, rfl, id⟩⟩

/-- Every promoted finding is a checked one, and no fingerprint is promoted twice. -/
theorem promoted_findings (hexadecimal : digest.Hexadecimal)
    (parsed : raws.mapM Finding.modelValidate = .ok findings) {promoted : List Finding}
    (isPromoted : promoted =
      (promotedReview settings digest project history review
        (sortFindings (keptFindings settings digest context worktree findings))).findings) :
    (∀ finding ∈ promoted, finding.Checked digest project) ∧
      (promoted.map Finding.fingerprintText).Nodup ∧
      promoted.length ≤ settings.maxFindings ∧
      ((∀ finding ∈ promoted, finding.FitsColumns = true) ↔
        ∀ kept ∈ keptFindings settings digest context worktree findings,
          rankOf Finding.Before (keptFindings settings digest context worktree findings)
              kept < settings.maxFindings →
            kept.FitsColumns = true) := by
  obtain ⟨track, listed, tracks⟩ :=
    @exists_tracked settings digest project history review
      (sortFindings (keptFindings settings digest context worktree findings))
  have distinct : ((sortFindings (keptFindings settings digest context worktree findings)).map
      Finding.fingerprintText).Nodup := by
    have perm := List.perm_insertionSort Finding.Before
      (keptFindings settings digest context worktree findings)
    exact (perm.map Finding.fingerprintText).nodup_iff.mpr nodup_keptFindings
  rw [isPromoted, listed]
  refine ⟨?_, ?_, ?_, ?_⟩
  · intro finding member
    obtain ⟨kept, taken, same⟩ := List.mem_map.mp member
    rw [← same]
    apply (tracks kept).checked
    exact checked_of_mem_keptFindings hexadecimal parsed
      (mem_sortFindings.mp (List.mem_of_mem_take taken))
  · have same : ∀ finding : Finding,
        (Finding.fingerprintText ∘ track) finding = finding.fingerprintText :=
      fun finding => (tracks finding).fingerprint
    rw [List.map_map, List.map_congr_left fun finding _ => same finding]
    exact distinct.sublist ((List.take_sublist _ _).map _)
  · rw [List.length_map, List.length_take]
    exact Nat.min_le_left _ _
  · have ranked : ∀ kept,
        kept ∈ (sortFindings (keptFindings settings digest context worktree findings)).take
            settings.maxFindings ↔
          kept ∈ keptFindings settings digest context worktree findings ∧
            rankOf Finding.Before (keptFindings settings digest context worktree findings)
              kept < settings.maxFindings :=
      fun kept => mem_take_insertionSort nodup_keptFindings.of_map
    constructor
    · intro fits kept member within
      rw [← (tracks kept).columns]
      exact fits _ (List.mem_map_of_mem ((ranked kept).mpr ⟨member, within⟩))
    · intro fits finding member
      obtain ⟨kept, taken, same⟩ := List.mem_map.mp member
      obtain ⟨isKept, within⟩ := (ranked kept).mp taken
      rw [← same, (tracks kept).columns]
      exact fits kept isKept within

theorem storable_resolvedFindings (hexadecimal : digest.Hexadecimal) {complete : Bool}
    (storable : ∀ finding ∈ history.previousFindings, finding.Storable) :
    ∀ finding ∈
        (reconcileFindingLineage digest project review history complete).resolvedFindings,
      finding.Storable := by
  intro finding member
  simp only [reconcileFindingLineage] at member
  split at member
  · obtain ⟨entry, known, same⟩ := List.mem_map.mp member
    rw [← same]
    have empty : ∀ entry ∈ ([] : Dict String Finding), entry.2.Storable := by
      intro entry nothing
      cases nothing
    exact storable_of_mem_previousById hexadecimal storable empty entry
      (List.mem_of_mem_filter known)
  · cases member

/-- A tracking names identifiers that are stored. -/
theorem all_isStorable_texts {metadata : ReviewMetadata} {tracking : FindingTracking}
    (storable : tracking.resolvedSemanticIds.all isStorable = true) :
    ({ metadata with findingLineage := some tracking } : ReviewMetadata).texts.all isStorable =
      ({ metadata with findingLineage := none } : ReviewMetadata).texts.all isStorable := by
  unfold ReviewMetadata.texts
  simp only [List.all_append, storable, List.all_nil]

theorem checkColumns_reconcile (hexadecimal : digest.Hexadecimal) {other : String}
    {complete : Bool} (storable : ∀ finding ∈ history.previousFindings, finding.Storable) :
    (ReviewResultRow.ofReview digest other
        (reconcileFindingLineage digest project review history complete).review).checkColumns
      acceptsVarchar =
      ReviewResultRow.checkColumns acceptsVarchar
        { summary := review.summary
          model := review.model
          inputTokens := review.inputTokens
          outputTokens := review.outputTokens
          reviewMetadata := { review.reviewMetadata with findingLineage := none }
          findings := [] } := by
  have resolved : ∀ finding ∈
      (reconcileFindingLineage digest project review history complete).resolvedFindings,
      finding.Storable :=
    storable_resolvedFindings hexadecimal storable
  have identifiers :
      ((reconcileFindingLineage digest project review history
        complete).resolvedFindings.filterMap Finding.semanticId).all isStorable = true := by
    rw [List.all_eq_true]
    intro semanticId member
    obtain ⟨finding, isResolved, known⟩ := List.mem_filterMap.mp member
    have stored := (resolved finding isResolved).semanticId
    rw [known] at stored
    exact stored
  have summary :
      isStorable
          (reconcileFindingLineage digest project review history complete).review.summary =
        isStorable review.summary :=
    isStorable_trackingSummary resolved
  have texts :
      (reconcileFindingLineage digest project review history
          complete).review.reviewMetadata.texts.all isStorable =
        ({ review.reviewMetadata with findingLineage := none } :
          ReviewMetadata).texts.all isStorable :=
    all_isStorable_texts identifiers
  unfold ReviewResultRow.checkColumns ReviewResultRow.ofReview
  dsimp only
  rw [summary, texts]
  rfl

/-- The columns of the promoted result, but its findings, take what those of the result of
the engine take. -/
theorem checkColumns_promotedReview (hexadecimal : digest.Hexadecimal)
    {validated : List Finding} {other : String}
    (storable : ∀ finding ∈ history.previousFindings, finding.Storable) :
    (ReviewResultRow.ofReview digest other
        (promotedReview settings digest project history review validated)).checkColumns
      acceptsVarchar = review.isStorable := by
  unfold promotedReview reconcileReview ReviewResult.isStorable ReviewMetadata.ownMetadata
  dsimp only
  split
  · exact checkColumns_reconcile hexadecimal storable
  · rfl

end Promoted

section Saved

variable {store : Store} {digest : Digest} {now : Time} {id : JobId} {job : Job}
  {worker : WorkerId} {history : FindingHistory} {review : ReviewResult}

theorem isStorable_of_acceptsVarchar {size : Nat} {text : String}
    (accepts : acceptsVarchar size text = true) : isStorable text = true := by
  unfold acceptsVarchar at accepts
  rw [Bool.and_eq_true] at accepts
  exact accepts.1

/-- The findings of an earlier review come from rows that were flushed. -/
theorem storable_of_loadFindingHistory (flushed : store.Flushed)
    (loaded : store.loadFindingHistory id = .ok history) :
    ∀ finding ∈ history.previousFindings, finding.Storable := by
  intro finding member
  unfold Store.loadFindingHistory at loaded
  cases found : store.jobs[id]? with
  | none =>
      rw [found] at loaded
      cases loaded
  | some job =>
      rw [found] at loaded
      have same := Except.ok.inj loaded
      rw [← same] at member
      dsimp only at member
      cases selected : store.baselineJob job with
      | none =>
          rw [selected] at member
          cases member
      | some other =>
          have isJob : other ∈ store.jobs :=
            List.mem_of_mem_filter (firstBy_mem selected)
          rw [selected, Option.bind_some] at member
          cases saved : other.result with
          | none =>
              rw [saved] at member
              cases member
          | some result =>
              rw [saved] at member
              obtain ⟨row, isRow, written⟩ := List.mem_map.mp member
              have checked := flushed other isJob result saved row isRow
              unfold ReviewFinding.checkColumns at checked
              simp only [Bool.and_eq_true, List.all_cons] at checked
              rw [← written]
              refine ⟨by tauto, by tauto, ?_⟩
              have identified : acceptsVarchar 64 row.semanticId = true := by tauto
              exact isStorable_of_acceptsVarchar identified

/-- Under a live lease, the result of a job that waits for it is saved if it is flushed. -/
theorem flushReviewResult_iff (found : store.jobs[id]? = some job)
    (live : job.live worker now = true) (validating : job.state = .validating)
    (unsaved : job.result = none) :
    (∃ saved record, store.flushReviewResult digest now id review worker =
          .ok (saved, record) ∧
        record.state = .readyToPublish) ↔
      ∃ row, (ReviewResultRow.ofReview digest job.project review).flush = .ok row := by
  let written : Job :=
    { job with
      result := some (.ofReview digest job.project review)
      state := .readyToPublish
      retryState := none
      leaseOwner := none
      leaseExpiresAt := none
      lastError := none
      lastErrorClass := none }
  have lease : job.requireLiveLease id worker now = .ok () :=
    Job.requireLiveLease_eq_ok.mpr live
  have saves : store.saveReviewResultAndMarkReady digest now id review worker =
      .ok (store.setJob id written, written.record id) := by
    apply Store.onJob_eq_ok.mpr
    refine ⟨job, written, found, ?_, rfl⟩
    rw [lease, Except.ok_bind, validating, unsaved]
    rfl
  have bound : id < store.jobs.length := (List.getElem?_eq_some_iff.mp found).1
  have wrote : (store.setJob id written).jobs[id]? = some written :=
    List.getElem?_set_self bound
  unfold Store.flushReviewResult
  rw [saves, Except.ok_bind, found, Option.bind_some, unsaved]
  dsimp only
  rw [wrote]
  dsimp only [written]
  cases flushed : (ReviewResultRow.ofReview digest job.project review).flush with
  | error raised =>
      rw [Except.error_bind]
      constructor
      · intro returned
        obtain ⟨_, _, failed, _⟩ := returned
        cases failed
      · intro stored
        obtain ⟨_, failed⟩ := stored
        cases failed
  | ok row =>
      rw [Except.ok_bind]
      exact ⟨fun _ => ⟨row, rfl⟩, fun _ => ⟨_, _, rfl, rfl⟩⟩

end Saved

section Results

variable {settings : ReviewSettings} {digest : Digest} {context : ReviewContext}
  {worktree : Worktree} {raws findings : List Finding} {history : FindingHistory}
  {store earlier : Store} {now : Time} {id other : JobId} {job : Job} {worker : WorkerId}
  {review : ReviewResult}

/-- Of an answer that was parsed, the result is validated and saved if and only if no check
raises, the findings to promote are within their columns, and so is the rest. -/
theorem answer_stored_iff (few : settings.maxFindings ≤ 50) (hexadecimal : digest.Hexadecimal)
    (parsed : raws.mapM Finding.modelValidate = .ok findings) (flushed : earlier.Flushed)
    (loaded : earlier.loadFindingHistory other = .ok history)
    (found : store.jobs[id]? = some job) (live : job.live worker now = true)
    (validating : job.state = .validating) (unsaved : job.result = none) :
    StoresAnswer settings digest context worktree history store now id job.project worker
        findings review ↔
      StorableAnswer settings digest context worktree findings review := by
  have storable := storable_of_loadFindingHistory flushed loaded
  let validated := sortFindings (keptFindings settings digest context worktree findings)
  let promoted := promotedReview settings digest job.project history review validated
  obtain ⟨checked, distinct, short, ranked⟩ :=
    @promoted_findings settings digest context worktree raws findings job.project history
      review hexadecimal parsed promoted.findings rfl
  have rows : (∀ row ∈ findingRows digest job.project 0 [] promoted.findings,
        row.fits = true) ↔ ∀ finding ∈ promoted.findings, finding.FitsColumns = true :=
    fits_findingRows checked distinct (by omega)
  have rowsDistinct : ((findingRows digest job.project 0 [] promoted.findings).map
      ReviewFinding.fingerprint).Nodup := by
    rw [map_fingerprint_findingRows checked distinct]
    exact distinct
  have columns : (ReviewResultRow.ofReview digest job.project promoted).checkColumns
      acceptsVarchar = review.isStorable :=
    checkColumns_promotedReview hexadecimal storable
  have saves := @flushReviewResult_iff store digest now id job worker promoted found live
    validating unsaved
  constructor
  · intro stores
    obtain ⟨_, saved, record, returned, fits, ran, ready⟩ := stores
    have checkable := checkable_of_validateAll returned
    rw [validateAll_eq checkable] at returned
    cases returned
    have flush := saves.mp ⟨saved, record, ran, ready⟩
    rw [ReviewResultRow.flush_of_fits fits rowsDistinct, columns] at flush
    exact ⟨checkable_iff.mp checkable, ranked.mp (rows.mp fits), flush⟩
  · intro plain
    have fits := rows.mpr (ranked.mpr plain.findings)
    have flush : ∃ row, (ReviewResultRow.ofReview digest job.project promoted).flush =
        .ok row := by
      rw [ReviewResultRow.flush_of_fits fits rowsDistinct, columns]
      exact plain.result
    obtain ⟨saved, record, ran, ready⟩ := saves.mpr flush
    exact
      ⟨validated, saved, record, validateAll_eq (checkable_iff.mpr plain.paths), fits, ran,
        ready⟩

/-- The identifiers of the samples: a digest for the changed line and one for the others. -/
def lineDigest : Digest where
  normalizeText text := text
  fingerprint payload :=
    if payload.line = 2 then "00000000000000000000000000000000"
    else "ffffffffffffffffffffffffffffffff"
  semanticId _ := "0123456789abcdef0123456789abcdef"

theorem lineDigest_hexadecimal : lineDigest.Hexadecimal where
  fingerprint payload := by
    unfold lineDigest
    dsimp only
    split <;> decide
  semanticId payload := by
    unfold lineDigest
    dsimp only
    decide

def validatingJob : Job :=
  { project := "firmware"
    changeNumber := 1
    patchsetNumber := 2
    revisionSha := "0123456"
    reviewPolicyVersion := "v1"
    state := .validating
    eventPayload :=
      { project := "firmware"
        changeNumber := 1
        patchsetNumber := 2
        revisionSha := "0123456" }
    nextAttemptAt := 0
    leaseOwner := some "worker"
    leaseExpiresAt := some 100
    createdAt := 0 }

theorem answer_stored_sample :
    StoresAnswer {} lineDigest sampleContext sampleWorktree
      { baselinePatchset := none, previousFindings := [], seenSemanticIds := [] }
      { jobs := [validatingJob] } 0 0 validatingJob.project "worker" sampleAnswer
      { summary := "two findings" } := by
  have parsed : sampleAnswer.mapM Finding.modelValidate = .ok sampleAnswer := by
    decide +kernel
  have flushed : ({ jobs := [validatingJob] } : Store).Flushed := by
    intro job member result saved
    rw [List.mem_singleton.mp member] at saved
    cases saved
  have loaded : ({ jobs := [validatingJob] } : Store).loadFindingHistory 0 =
      .ok { baselinePatchset := none, previousFindings := [], seenSemanticIds := [] } := rfl
  apply (answer_stored_iff (by decide) lineDigest_hexadecimal parsed flushed loaded rfl rfl rfl
    rfl).mpr
  refine ⟨?_, by decide +kernel, by decide +kernel⟩
  intro finding _ _
  exact ⟨_, rfl, fun _ _ _ => ⟨_, rfl⟩⟩

/-- A finding on the changed line, under a fingerprint of 65 characters. -/
def longFingerprint : Finding :=
  { sampleFinding 2 none with fingerprint := some (String.ofList (List.replicate 65 '0')) }

/-- The finding is parsed and validated, and it is within no row. -/
theorem long_fingerprint_not_stored :
    [longFingerprint].mapM Finding.modelValidate = .ok [longFingerprint] ∧
      ¬StoresAnswer {} lineDigest sampleContext sampleWorktree
        { baselinePatchset := none, previousFindings := [], seenSemanticIds := [] }
        { jobs := [validatingJob] } 0 0 validatingJob.project "worker" [longFingerprint]
        { summary := "one finding" } := by
  refine ⟨by decide +kernel, ?_⟩
  intro stores
  obtain ⟨validated, _, _, returned, fits, _⟩ := stores
  have kept : validateAll {} lineDigest sampleContext sampleWorktree [longFingerprint] =
      .ok [longFingerprint] := by
    decide +kernel
  rw [kept] at returned
  cases returned
  revert fits
  decide +kernel

end Results

end PeReview
