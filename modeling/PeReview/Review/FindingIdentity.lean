import PeReview.Data.Firsts
import PeReview.Review.Anchors
import PeReview.Review.Validator

/-!
# The identity of findings

`validate_all` passes over a finding whose fingerprint it has seen.  A fingerprint
is a hash of what identifies a finding, unless the finding comes with one.
-/

namespace PeReview

open PeReview.Data

/-- What identifies a finding: the payload of `ensure_fingerprint`. -/
def Finding.identity (digest : Digest) (project : String) (finding : Finding) :
    FingerprintPayload where
  project := project
  path := finding.location.path
  side := finding.location.side
  line := finding.location.startLine
  category := digest.normalizeText finding.category
  title := digest.normalizeText finding.title
  evidence := digest.normalizeText finding.evidence

/-- The fingerprint of a finding: the one it comes with, or else the hash. -/
def Finding.fingerprintInForce (digest : Digest) (project : String)
    (finding : Finding) : String :=
  if truthy finding.fingerprint then finding.fingerprint.getD ""
  else digest.fingerprint (finding.identity digest project)

def Finding.fingerprintText (finding : Finding) : String :=
  finding.fingerprint.getD ""

section Loop

variable (settings : ReviewSettings) (digest : Digest) (context : ReviewContext)
  (worktree : Worktree)

/-- What the checks keep of a finding. -/
def keptFinding (finding : Finding) : Option Finding :=
  match checkFinding settings digest context worktree finding with
  | .ok kept => kept
  | .error _ => none

/-- The loop does not raise at these findings. -/
def Checkable (findings : List Finding) : Prop :=
  ∀ finding ∈ findings, ∃ kept,
    checkFinding settings digest context worktree finding = .ok kept

variable {settings digest context worktree}

theorem keptFinding_of_check {finding : Finding} {kept : Option Finding}
    (checked : checkFinding settings digest context worktree finding = .ok kept) :
    keptFinding settings digest context worktree finding = kept := by
  rw [keptFinding, checked]

/-- The loop keeps the first finding of each fingerprint. -/
theorem acceptFindings_eq {findings : List Finding} {seen : List String}
    {accepted : List Finding}
    (checkable : Checkable settings digest context worktree findings) :
    acceptFindings settings digest context worktree findings seen accepted =
      .ok
        (accepted ++
          firstsBy Finding.fingerprintText seen
            (findings.filterMap (keptFinding settings digest context worktree))) := by
  induction findings generalizing seen accepted with
  | nil =>
      simp [acceptFindings, firstsBy]
  | cons finding rest inductionHypothesis =>
      obtain ⟨first, others⟩ := List.forall_mem_cons.mp checkable
      obtain ⟨kept, checked⟩ := first
      rw [acceptFindings, checked]
      cases kept with
      | none =>
          rw [List.filterMap_cons_none (keptFinding_of_check checked)]
          exact inductionHypothesis others
      | some kept =>
          rw [List.filterMap_cons_some (keptFinding_of_check checked), firstsBy]
          dsimp only
          change (if seen.contains kept.fingerprintText then _ else _) = _
          by_cases known : kept.fingerprintText ∈ seen
          · rw [if_pos (List.contains_iff_mem.mpr known), if_pos known]
            exact inductionHypothesis others
          · rw [if_neg (mt List.contains_iff_mem.mp known), if_neg known,
              inductionHypothesis others, List.append_assoc, List.singleton_append]
            rfl

/-- A loop that returns has checked every finding. -/
theorem checkable_of_accepted {findings : List Finding} {seen : List String}
    {accepted result : List Finding}
    (ran :
      acceptFindings settings digest context worktree findings seen accepted =
        .ok result) :
    Checkable settings digest context worktree findings := by
  induction findings generalizing seen accepted with
  | nil =>
      intro finding member
      cases member
  | cons finding rest inductionHypothesis =>
      unfold acceptFindings at ran
      rw [Checkable, List.forall_mem_cons]
      split at ran
      · cases ran
      · rename_i checked
        exact ⟨⟨_, checked⟩, inductionHypothesis ran⟩
      · rename_i kept checked
        dsimp only at ran
        split at ran
        · exact ⟨⟨_, checked⟩, inductionHypothesis ran⟩
        · exact ⟨⟨_, checked⟩, inductionHypothesis ran⟩

/-- A finding is accepted in the place of one of the findings checked. -/
theorem exists_check_of_mem_validateAll {findings result : List Finding}
    (validated : validateAll settings digest context worktree findings = .ok result)
    {kept : Finding} (member : kept ∈ result) :
    ∃ finding ∈ findings,
      checkFinding settings digest context worktree finding = .ok (some kept) := by
  unfold validateAll at validated
  split at validated
  · cases validated
  · rename_i accepted ran
    cases validated
    rw [mem_sortFindings] at member
    have checkable := checkable_of_accepted ran
    rw [acceptFindings_eq checkable] at ran
    cases ran
    have known := mem_of_mem_firstsBy member
    obtain ⟨finding, isIn, keeps⟩ := List.mem_filterMap.mp known
    obtain ⟨outcome, checked⟩ := checkable finding isIn
    rw [keptFinding_of_check checked] at keeps
    subst keeps
    exact ⟨finding, isIn, checked⟩

/-- What the checks keep of a finding identifies it as before, and carries the
fingerprint in force. -/
theorem identity_of_check {finding kept : Finding}
    (checked :
      checkFinding settings digest context worktree finding = .ok (some kept)) :
    kept.identity digest context.project = finding.identity digest context.project ∧
      kept.fingerprintText =
        finding.fingerprintInForce digest context.project := by
  unfold checkFinding at checked
  split at checked
  · cases checked
  · split at checked
    · cases checked
    · cases checked
    · rename_i location placed
      split at checked
      · cases checked
      · cases checked
        have anchored := anchor_placeFinding placed
        simp only [FindingLocation.anchor, Prod.mk.injEq] at anchored
        obtain ⟨path, side, line⟩ := anchored
        unfold Finding.ensureFingerprint Finding.fingerprintInForce
          Finding.fingerprintText Finding.identity
        dsimp only
        split
        · exact ⟨by rw [path, side, line], rfl⟩
        · exact ⟨by rw [path, side, line], by rw [path, side, line]; rfl⟩

section Agreement

variable (settings digest context worktree)

/-- A finding passes all checks but the last. -/
def Passes (finding : Finding) : Prop :=
  ∃ kept, checkFinding settings digest context worktree finding = .ok (some kept)

/-- A finding that passes the checks and is dropped repeats an accepted one, and no
two accepted findings are the same. -/
structure DropsRepeatsOnly (findings : List Finding) : Prop where
  repeats : ∀ before finding after accepted, findings = before ++ finding :: after →
    Passes settings digest context worktree finding →
      acceptFindings settings digest context worktree before [] [] = .ok accepted →
        acceptFindings settings digest context worktree (before ++ [finding]) [] [] =
            .ok accepted →
          ∃ other ∈ accepted, other.identity digest context.project =
            finding.identity digest context.project
  distinct : ∀ result,
    validateAll settings digest context worktree findings = .ok result →
      (result.map (Finding.identity digest context.project)).Nodup

/-- Among the findings that pass the checks, a fingerprint is repeated exactly when
the finding is. -/
def FingerprintsAgree (findings : List Finding) : Prop :=
  ∀ before finding after, findings = before ++ finding :: after →
    Passes settings digest context worktree finding →
      ((∃ earlier ∈ before, Passes settings digest context worktree earlier ∧
          earlier.fingerprintInForce digest context.project =
            finding.fingerprintInForce digest context.project) ↔
        ∃ earlier ∈ before, Passes settings digest context worktree earlier ∧
          earlier.identity digest context.project =
            finding.identity digest context.project)

variable {settings digest context worktree}

/-- What is kept, and of which finding. -/
theorem keptFinding_eq_some {finding kept : Finding} :
    keptFinding settings digest context worktree finding = some kept ↔
      checkFinding settings digest context worktree finding = .ok (some kept) := by
  unfold keptFinding
  split
  · rename_i outcome checked
    rw [checked]
    simp
  · rename_i raised checked
    rw [checked]
    simp

/-- A key of a kept finding, read off the findings. -/
theorem mem_map_kept {Key : Type} {key inForce : Finding → Key}
    (reads : ∀ {finding kept},
      checkFinding settings digest context worktree finding = .ok (some kept) →
        key kept = inForce finding)
    {findings : List Finding} {wanted : Key} :
    wanted ∈ (findings.filterMap (keptFinding settings digest context worktree)).map key ↔
      ∃ earlier ∈ findings, Passes settings digest context worktree earlier ∧
        inForce earlier = wanted := by
  rw [List.mem_map]
  constructor
  · intro known
    obtain ⟨kept, member, same⟩ := known
    obtain ⟨finding, isIn, keeps⟩ := List.mem_filterMap.mp member
    have checked := keptFinding_eq_some.mp keeps
    exact ⟨finding, isIn, ⟨kept, checked⟩, (reads checked).symm.trans same⟩
  · intro known
    obtain ⟨finding, isIn, passes, same⟩ := known
    obtain ⟨kept, checked⟩ := passes
    exact
      ⟨kept, List.mem_filterMap.mpr ⟨finding, isIn, keptFinding_eq_some.mpr checked⟩,
        (reads checked).trans same⟩

/-- A kept finding, at its place among the findings. -/
theorem split_kept {findings before after : List Finding} {kept : Finding}
    (split_ : findings.filterMap (keptFinding settings digest context worktree) =
      before ++ kept :: after) :
    ∃ front finding later, findings = front ++ finding :: later ∧
      checkFinding settings digest context worktree finding = .ok (some kept) ∧
        front.filterMap (keptFinding settings digest context worktree) = before := by
  obtain ⟨front, rest, whole, shownFront, shownRest⟩ :=
    List.filterMap_eq_append_iff.mp split_
  obtain ⟨skipped, finding, later, shape, drops, keeps, _⟩ :=
    List.filterMap_eq_cons_iff.mp shownRest
  refine ⟨front ++ skipped, finding, later, ?_, keptFinding_eq_some.mp keeps, ?_⟩
  · rw [whole, shape, List.append_assoc]
  · rw [List.filterMap_append, shownFront, List.filterMap_eq_nil_iff.mpr drops,
      List.append_nil]

theorem sameRepeats_iff {findings : List Finding} :
    SameRepeats Finding.fingerprintText
        (Finding.identity digest context.project)
        (findings.filterMap (keptFinding settings digest context worktree)) ↔
      FingerprintsAgree settings digest context worktree findings := by
  have fingerprints : ∀ {finding kept : Finding},
      checkFinding settings digest context worktree finding = .ok (some kept) →
        kept.fingerprintText = finding.fingerprintInForce digest context.project :=
    fun checked => (identity_of_check checked).2
  have identities : ∀ {finding kept : Finding},
      checkFinding settings digest context worktree finding = .ok (some kept) →
        kept.identity digest context.project = finding.identity digest context.project :=
    fun checked => (identity_of_check checked).1
  constructor
  · intro same before finding after split_ passes
    obtain ⟨kept, checked⟩ := passes
    have agrees := same (before.filterMap (keptFinding settings digest context worktree))
      kept (after.filterMap (keptFinding settings digest context worktree)) (by
        rw [split_, List.filterMap_append,
          List.filterMap_cons_some (keptFinding_eq_some.mpr checked)])
    rw [mem_map_kept fingerprints, mem_map_kept identities, fingerprints checked,
      identities checked] at agrees
    exact agrees
  · intro agree before kept after split_
    obtain ⟨front, finding, later, whole, checked, rfl⟩ := split_kept split_
    have agrees := agree front finding later whole ⟨kept, checked⟩
    rw [mem_map_kept fingerprints, mem_map_kept identities, fingerprints checked,
      identities checked]
    exact agrees

/-- A front of findings that can all be checked. -/
theorem Checkable.front {findings front later : List Finding}
    (checkable : Checkable settings digest context worktree findings)
    (whole : findings = front ++ later) :
    Checkable settings digest context worktree front := by
  intro finding member
  apply checkable
  rw [whole]
  exact List.mem_append_left later member

/-- What the loop has accepted before a finding, and whether it drops it. -/
theorem acceptFindings_concat {findings front later : List Finding} {finding kept : Finding}
    (checkable : Checkable settings digest context worktree findings)
    (whole : findings = front ++ finding :: later)
    (checked : checkFinding settings digest context worktree finding = .ok (some kept)) :
    ∃ before, front.filterMap (keptFinding settings digest context worktree) = before ∧
      acceptFindings settings digest context worktree front [] [] =
          .ok (firstsBy Finding.fingerprintText [] before) ∧
        acceptFindings settings digest context worktree (front ++ [finding]) [] [] =
          .ok
            (if kept.fingerprintText ∈ before.map Finding.fingerprintText then
              firstsBy Finding.fingerprintText [] before
            else firstsBy Finding.fingerprintText [] before ++ [kept]) := by
  refine ⟨_, rfl, ?_, ?_⟩
  · rw [acceptFindings_eq (checkable.front whole), List.nil_append]
  · have longer : findings = (front ++ [finding]) ++ later := by
      rw [whole, List.append_assoc, List.singleton_append]
    rw [acceptFindings_eq (checkable.front longer), List.nil_append,
      List.filterMap_append,
      List.filterMap_cons_some (keptFinding_eq_some.mpr checked), List.filterMap_nil,
      firstsBy_concat]

/-- The loop drops repetitions only, and accepts no finding twice, exactly when the
fingerprints of the findings agree with what identifies them. -/
theorem distinct_findings_kept_iff {findings result : List Finding}
    (validated : validateAll settings digest context worktree findings = .ok result) :
    DropsRepeatsOnly settings digest context worktree findings ↔
      FingerprintsAgree settings digest context worktree findings := by
  rw [← sameRepeats_iff, ← firstsBy_agree_iff]
  have accepts : ∃ accepted,
      acceptFindings settings digest context worktree findings [] [] = .ok accepted ∧
        result = sortFindings accepted := by
    unfold validateAll at validated
    split at validated
    · cases validated
    · rename_i accepted ran
      cases validated
      exact ⟨accepted, ran, rfl⟩
  obtain ⟨accepted, ran, sorted⟩ := accepts
  have checkable := checkable_of_accepted ran
  rw [acceptFindings_eq checkable, List.nil_append] at ran
  cases ran
  have permuted := List.perm_insertionSort Finding.Before
    (firstsBy Finding.fingerprintText []
      (findings.filterMap (keptFinding settings digest context worktree)))
  have distinct_iff :
      (result.map (Finding.identity digest context.project)).Nodup ↔
        ((firstsBy Finding.fingerprintText []
          (findings.filterMap (keptFinding settings digest context worktree))).map
            (Finding.identity digest context.project)).Nodup := by
    rw [sorted]
    exact (permuted.map _).nodup_iff
  constructor
  · intro drops
    refine ⟨?_, distinct_iff.mp (drops.distinct result validated)⟩
    intro before kept after split_ known
    obtain ⟨front, finding, later, whole, checked, shown⟩ := split_kept split_
    obtain ⟨_, rfl, early, late⟩ := acceptFindings_concat checkable whole checked
    rw [if_pos (key_mem_firstsBy_iff.mp (by rw [shown]; exact known))] at late
    obtain ⟨other, member, same⟩ :=
      drops.repeats front finding later _ whole ⟨kept, checked⟩ early late
    rw [(identity_of_check checked).1, ← same, ← shown]
    exact List.mem_map_of_mem member
  · intro agrees
    obtain ⟨passes, distinct⟩ := agrees
    constructor
    · intro front finding later already whole passing earlyRan lateRan
      obtain ⟨kept, checked⟩ := passing
      obtain ⟨before, shown, early, late⟩ := acceptFindings_concat checkable whole checked
      cases early.symm.trans earlyRan
      have same := Except.ok.inj (late.symm.trans lateRan)
      have known : kept.fingerprintText ∈ before.map Finding.fingerprintText := by
        apply Classical.byContradiction
        intro fresh
        rw [if_neg fresh] at same
        have lengths := congrArg List.length same
        rw [List.length_append, List.length_singleton] at lengths
        omega
      have split_ : findings.filterMap (keptFinding settings digest context worktree) =
          before ++ kept ::
            later.filterMap (keptFinding settings digest context worktree) := by
        rw [whole, List.filterMap_append, shown,
          List.filterMap_cons_some (keptFinding_eq_some.mpr checked)]
      have repeated := passes before kept _ split_ (key_mem_firstsBy_iff.mpr known)
      obtain ⟨other, member, likes⟩ := List.mem_map.mp repeated
      exact ⟨other, member, likes.trans (identity_of_check checked).1⟩
    · intro other again
      cases validated.symm.trans again
      exact distinct_iff.mpr distinct

/-- With an injective hash, findings that come without fingerprints agree. -/
theorem fingerprintsAgree_of_unsupplied
    (injective : Function.Injective digest.fingerprint) {findings : List Finding}
    (unsupplied : ∀ finding ∈ findings, truthy finding.fingerprint = false) :
    FingerprintsAgree settings digest context worktree findings := by
  have hashed : ∀ finding ∈ findings,
      finding.fingerprintInForce digest context.project =
        digest.fingerprint (finding.identity digest context.project) := by
    intro finding member
    simp [Finding.fingerprintInForce, unsupplied finding member]
  intro before finding after whole _
  have early : ∀ earlier ∈ before, earlier ∈ findings := by
    intro earlier member
    rw [whole]
    exact List.mem_append_left _ member
  have here : finding ∈ findings := by
    rw [whole]
    exact List.mem_append_right _ List.mem_cons_self
  constructor
  · rintro ⟨earlier, member, passes, same⟩
    rw [hashed earlier (early earlier member), hashed finding here] at same
    exact ⟨earlier, member, passes, injective same⟩
  · rintro ⟨earlier, member, passes, same⟩
    refine ⟨earlier, member, passes, ?_⟩
    rw [hashed earlier (early earlier member), hashed finding here, same]

end Agreement

end Loop

/-- A text that can be told from what follows it. -/
def delimited (text : List Char) : List Char :=
  text.flatMap (fun char => ['+', char]) ++ ['.']

theorem delimited_inj {first second before after : List Char}
    (same : delimited first ++ before = delimited second ++ after) :
    first = second ∧ before = after := by
  induction first generalizing second with
  | nil =>
      cases second with
      | nil =>
          simpa [delimited] using same
      | cons char rest =>
          simp [delimited] at same
  | cons char rest inductionHypothesis =>
      cases second with
      | nil =>
          simp [delimited] at same
      | cons other others =>
          simp only [delimited, List.flatMap_cons, List.cons_append, List.nil_append,
            List.cons.injEq, true_and] at same
          obtain ⟨equal, remaining⟩ := same
          obtain ⟨shorter, left⟩ := inductionHypothesis remaining
          exact ⟨by rw [equal, shorter], left⟩

def payloadText (payload : FingerprintPayload) : List Char :=
  delimited payload.project.toList ++
    (delimited payload.path.toList ++
      (delimited (if payload.side = .parent then ['P'] else ['R']) ++
        (delimited (List.replicate payload.line '1') ++
          (delimited payload.category.toList ++
            (delimited payload.title.toList ++
              (delimited payload.evidence.toList ++ []))))))

/-- Fingerprints that hash nothing. -/
def plainDigest : Digest where
  normalizeText text := text
  fingerprint payload := String.ofList (payloadText payload)
  semanticId payload := payload.title

theorem plainDigest_injective : Function.Injective plainDigest.fingerprint := by
  intro first second same
  have texts : payloadText first = payloadText second := by
    have shown := congrArg String.toList same
    simpa [plainDigest] using shown
  unfold payloadText at texts
  obtain ⟨project, texts⟩ := delimited_inj texts
  obtain ⟨path, texts⟩ := delimited_inj texts
  obtain ⟨side, texts⟩ := delimited_inj texts
  obtain ⟨line, texts⟩ := delimited_inj texts
  obtain ⟨category, texts⟩ := delimited_inj texts
  obtain ⟨title, texts⟩ := delimited_inj texts
  obtain ⟨evidence, _⟩ := delimited_inj texts
  have lines := congrArg List.length line
  rw [List.length_replicate, List.length_replicate] at lines
  have sides : first.side = second.side := by
    cases one : first.side with
    | parent =>
        cases two : second.side with
        | parent =>
            rfl
        | revision =>
            simp [one, two] at side
    | revision =>
        cases two : second.side with
        | parent =>
            simp [one, two] at side
        | revision =>
            rfl
  cases first
  cases second
  simp_all only [String.toList_inj]

def twoDefects (fingerprint : Option String) : List Finding :=
  [{ sampleFinding 2 none with fingerprint },
    { sampleFinding 2 none with title := "double free", fingerprint }]

theorem distinct_findings_kept_two_defects :
    DropsRepeatsOnly {} plainDigest sampleContext sampleWorktree (twoDefects none) := by
  have returned : (validateAll {} plainDigest sampleContext sampleWorktree
      (twoDefects none)).toOption.isSome = true := by
    decide +kernel
  cases validated : validateAll {} plainDigest sampleContext sampleWorktree
      (twoDefects none) with
  | error raised =>
      rw [validated] at returned
      cases returned
  | ok result =>
      apply (distinct_findings_kept_iff validated).mpr
      apply fingerprintsAgree_of_unsupplied plainDigest_injective
      intro finding member
      rcases List.mem_cons.mp member with rfl | later
      · rfl
      · cases List.mem_singleton.mp later
        rfl

/-- The second of two defects that come with one fingerprint is dropped. -/
theorem distinct_finding_dropped :
    (validateAll {} plainDigest sampleContext sampleWorktree
        (twoDefects (some "f"))).toOption.map List.length = some 1 ∧
      ¬DropsRepeatsOnly {} plainDigest sampleContext sampleWorktree
        (twoDefects (some "f")) := by
  refine ⟨by decide +kernel, ?_⟩
  intro drops
  have early : acceptFindings {} plainDigest sampleContext sampleWorktree
      [{ sampleFinding 2 none with fingerprint := some "f" }] [] [] =
        .ok [{ sampleFinding 2 none with fingerprint := some "f" }] := by
    decide +kernel
  have late : acceptFindings {} plainDigest sampleContext sampleWorktree
      (twoDefects (some "f")) [] [] =
        .ok [{ sampleFinding 2 none with fingerprint := some "f" }] := by
    decide +kernel
  have passes : checkFinding {} plainDigest sampleContext sampleWorktree
      { sampleFinding 2 none with title := "double free", fingerprint := some "f" } =
        .ok (some
          { sampleFinding 2 none with
            title := "double free"
            fingerprint := some "f" }) := by
    decide +kernel
  obtain ⟨other, member, same⟩ :=
    drops.repeats [{ sampleFinding 2 none with fingerprint := some "f" }] _ [] _ rfl
      ⟨_, passes⟩ early late
  cases List.mem_singleton.mp member
  exact absurd (congrArg FingerprintPayload.title same) (by decide)

end PeReview
