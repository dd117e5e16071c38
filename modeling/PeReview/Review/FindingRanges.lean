import PeReview.Data.Overlay
import PeReview.Review.FindingIdentity
import PeReview.Review.Parsing

/-!
# The ranges of accepted findings

Where `validate_all` leaves a finding: on a line, or on a range that lies within the
texts of its lines; and the stored location passes the checks of `FindingLocation`
again.
-/

namespace PeReview

open PeReview.Data

namespace FindingLocation

variable {location : FindingLocation} {startText : String}
  {lineText : Nat → Option String}

structure LineOnly (location : FindingLocation) : Prop where
  startCharacter : location.startCharacter = 0
  endLine : location.endLine = none
  endCharacter : location.endCharacter = none

/-- A location on a range within these lines that is not empty. -/
def InRange (lineText : Nat → Option String) (location : FindingLocation) : Prop :=
  ∃ endLine endCharacter startText endText,
    location.endLine = some endLine ∧ location.endCharacter = some endCharacter ∧
      lineText location.startLine = some startText ∧ lineText endLine = some endText ∧
        location.startCharacter ≤ startText.length ∧ endCharacter ≤ endText.length ∧
          (location.startLine < endLine ∨
            location.startLine = endLine ∧ location.startCharacter < endCharacter)

/-- What the cross-field check leaves: an end character only with an end line, and a
range that does not run backwards. -/
structure Ordered (location : FindingLocation) : Prop where
  lineless : location.endLine = none → location.endCharacter = none
  forward : ∀ endLine, location.endLine = some endLine → location.startLine ≤ endLine
  sameLine : location.endLine = some location.startLine →
    ∃ endCharacter, location.endCharacter = some endCharacter ∧
      location.startCharacter < endCharacter

/-- The cross-field check leaves an ordered location. -/
theorem ordered_validateRange {raw : FindingLocation}
    (accepted : raw.validateRange = .ok location) : location.Ordered := by
  unfold validateRange at accepted
  split at accepted
  · rename_i endLine
    split at accepted
    · cases accepted
    · rename_i endCharacter
      cases accepted
      refine ⟨fun _ => by simpa using endCharacter, ?_, ?_⟩
      · intro line present
        rw [endLine] at present
        cases present
      · intro present
        rw [endLine] at present
        cases present
  · rename_i endLine present
    split at accepted
    · cases accepted
    · rename_i notBefore
      split at accepted
      · rename_i same
        split at accepted
        · cases accepted
          refine ⟨?_, ?_, ?_⟩
          · intro absent
            exact absurd (present.symm.trans absent) (Option.some_ne_none _)
          · intro line there
            have equal : endLine = line := Option.some.inj (present.symm.trans there)
            show raw.startLine ≤ line
            omega
          · intro _
            exact ⟨_, rfl, Nat.lt_succ_self _⟩
        · rename_i endCharacter given
          split at accepted
          · cases accepted
          · rename_i wide
            cases accepted
            refine ⟨?_, ?_, ?_⟩
            · intro absent
              exact absurd (present.symm.trans absent) (Option.some_ne_none _)
            · intro line there
              have equal : endLine = line := Option.some.inj (present.symm.trans there)
              omega
            · intro _
              exact ⟨endCharacter, given, by omega⟩
      · rename_i different
        cases accepted
        refine ⟨?_, ?_, ?_⟩
        · intro absent
          exact absurd (present.symm.trans absent) (Option.some_ne_none _)
        · intro line there
          have equal : endLine = line := Option.some.inj (present.symm.trans there)
          omega
        · intro there
          exact absurd (Option.some.inj (present.symm.trans there)) different

/-- An ordered location passes the cross-field check as it is. -/
theorem Ordered.validateRange_eq (ordered : location.Ordered) :
    location.validateRange = .ok location := by
  unfold validateRange
  split
  · rename_i endLine
    rw [ordered.lineless endLine]
    rfl
  · rename_i endLine present
    have forward := ordered.forward endLine present
    rw [if_neg (by omega)]
    split
    · rename_i same
      obtain ⟨endCharacter, given, wide⟩ := ordered.sameLine (by rw [present, same])
      rw [given]
      dsimp only
      rw [if_neg (by omega)]
    · rfl

theorem LineOnly.ordered (line : location.LineOnly) : location.Ordered where
  lineless _ := line.endCharacter
  forward endLine present := by
    rw [line.endLine] at present
    cases present
  sameLine present := by
    rw [line.endLine] at present
    cases present

theorem InRange.ordered (range : location.InRange lineText) : location.Ordered := by
  obtain ⟨endLine, endCharacter, startText, endText, present, given, _, _, _, _,
    forward⟩ := range
  refine ⟨?_, ?_, ?_⟩
  · intro absent
    exact absurd (present.symm.trans absent) (Option.some_ne_none _)
  · intro line there
    have equal : endLine = line := Option.some.inj (present.symm.trans there)
    omega
  · intro there
    have equal : endLine = location.startLine :=
      Option.some.inj (present.symm.trans there)
    exact ⟨endCharacter, given, by omega⟩

theorem lineOnly_degradeToLineAnchor : location.degradeToLineAnchor.LineOnly :=
  ⟨rfl, rfl, rfl⟩

/-- After the start is fitted, the location is a line, or an ordered range that
starts within its line. -/
theorem fitStart_cases (startText : String) (ordered : location.Ordered) :
    (location.fitStart startText).LineOnly ∨
      location.fitStart startText = location ∧ location.endLine ≠ none ∧
        location.startCharacter ≤ startText.length := by
  unfold fitStart
  by_cases lineless : location.endLine = none
  · rw [if_pos lineless]
    exact .inl ⟨rfl, lineless, ordered.lineless lineless⟩
  · rw [if_neg lineless]
    by_cases outside : startText.length < location.startCharacter
    · rw [if_pos outside]
      exact .inl lineOnly_degradeToLineAnchor
    · rw [if_neg outside]
      exact .inr ⟨rfl, lineless, Nat.not_lt.mp outside⟩

/-- Fitting leaves a line, or a range within the texts of its lines. -/
theorem fit_cases (ordered : location.Ordered)
    (start : lineText location.startLine = some startText) :
    (location.fit startText lineText).LineOnly ∨
      (location.fit startText lineText).InRange lineText := by
  unfold fit
  rcases fitStart_cases startText ordered with
    line | ⟨same, ranged, within⟩
  · rw [fitEnd, line.endLine]
    exact .inl line
  · rw [same]
    obtain ⟨endLine, present⟩ := Option.ne_none_iff_exists'.mp ranged
    have forward := ordered.forward endLine present
    simp only [fitEnd, present]
    cases text : lineText endLine with
    | none =>
        exact .inl lineOnly_degradeToLineAnchor
    | some endText =>
        dsimp only
        cases given : location.endCharacter with
        | none =>
            -- On one line the check has set an end character already.
            have apart : location.startLine ≠ endLine := by
              intro sameLine
              obtain ⟨endCharacter, there, _⟩ :=
                ordered.sameLine (by rw [present, sameLine])
              rw [given] at there
              cases there
            refine .inr ⟨endLine, endText.length, startText, endText, rfl, rfl, start,
              text, within, Nat.le_refl _, .inl ?_⟩
            show location.startLine < endLine
            omega
        | some endCharacter =>
            dsimp only
            by_cases outside : endText.length < endCharacter
            · rw [if_pos outside]
              exact .inl lineOnly_degradeToLineAnchor
            · rw [if_neg outside]
              refine .inr ⟨endLine, endCharacter, startText, endText, present, given, start,
                text, within, Nat.not_lt.mp outside, ?_⟩
              by_cases sameLine : location.startLine = endLine
              · obtain ⟨other, there, wide⟩ :=
                  ordered.sameLine (by rw [present, sameLine])
                cases given.symm.trans there
                exact .inr ⟨sameLine, wide⟩
              · exact .inl (by omega)

theorem InRange.mono {other : Nat → Option String}
    (shown : ∀ line text, lineText line = some text → other line = some text)
    (range : location.InRange lineText) : location.InRange other := by
  obtain ⟨endLine, endCharacter, startText, endText, present, given, start, stop,
    rest⟩ := range
  exact
    ⟨endLine, endCharacter, startText, endText, present, given, shown _ _ start,
      shown _ _ stop, rest⟩

/-- An ordered location at lines from 1 on passes all checks as it is. -/
theorem Ordered.modelValidate_eq (ordered : location.Ordered)
    (positive : 1 ≤ location.startLine) :
    location.modelValidate = .ok location := by
  have endPositive : (location.endLine.all fun line => decide (1 ≤ line)) = true := by
    rw [Option.all_eq_true]
    intro line present
    have forward := ordered.forward line present
    exact decide_eq_true (by omega)
  have startPositive : decide (1 ≤ location.startLine) = true := decide_eq_true positive
  rw [modelValidate, startPositive, endPositive]
  exact ordered.validateRange_eq

/-- What the checks of `FindingLocation` leave. -/
theorem ordered_modelValidate {raw : FindingLocation}
    (accepted : raw.modelValidate = .ok location) :
    location.Ordered ∧ 1 ≤ location.startLine := by
  unfold modelValidate at accepted
  obtain ⟨_, positive, accepted⟩ := Except.bind_eq_ok.mp accepted
  obtain ⟨_, _, accepted⟩ := Except.bind_eq_ok.mp accepted
  rw [Except.require_eq_ok, decide_eq_true_eq] at positive
  refine ⟨ordered_validateRange accepted, ?_⟩
  have kept : location.startLine = raw.startLine := by
    unfold validateRange at accepted
    split at accepted
    · split at accepted
      · cases accepted
      · cases accepted
        rfl
    · split at accepted
      · cases accepted
      · split at accepted
        · split at accepted
          · cases accepted
            rfl
          · split at accepted
            · cases accepted
            · cases accepted
              rfl
        · cases accepted
          rfl
  rw [kept]
  exact positive

end FindingLocation

/-- Every value of a list computation that may fail is the value of one of its
items. -/
theorem exists_of_mem_mapM_some {Item Value : Type} {action : Item → Option Value}
    {items : List Item} {values : List Value}
    (computed : items.mapM action = some values) :
    ∀ value ∈ values, ∃ item ∈ items, action item = some value := by
  induction items generalizing values with
  | nil =>
      cases computed
      intro value member
      cases member
  | cons item rest inductionHypothesis =>
      rw [List.mapM_cons] at computed
      obtain ⟨first, firstComputed, remaining⟩ := Option.bind_eq_some_iff.mp computed
      obtain ⟨others, othersComputed, same⟩ := Option.bind_eq_some_iff.mp remaining
      cases same
      intro value member
      rcases List.mem_cons.mp member with rfl | later
      · exact ⟨item, List.mem_cons_self, firstComputed⟩
      · obtain ⟨other, isIn, computes⟩ :=
          inductionHypothesis othersComputed value later
        exact ⟨other, List.mem_cons_of_mem item isIn, computes⟩

/-- A line of a file, from 1 on, as it is shown. -/
def fileLine (content : Option (List UInt8)) (line : Nat) : Option String :=
  if line = 0 then none
  else
    content.bind fun bytes => (byteLines bytes)[line - 1]?.bind decodeLine

/-- The requested lines are lines of the file. -/
theorem fileLine_of_readUtf8Lines {content : Option (List UInt8)} {wanted : List Nat}
    {lines : Dict Nat String} (read_ : readUtf8Lines content wanted = some lines)
    {line : Nat} {text : String} (found : Dict.get? lines line = some text) :
    fileLine content line = some text := by
  have member := Dict.mem_of_get? found
  unfold readUtf8Lines at read_
  dsimp only at read_
  split at read_
  · cases read_
    cases member
  · cases content with
    | none =>
        cases read_
    | some bytes =>
        obtain ⟨entry, isIn, shown⟩ := exists_of_mem_mapM_some read_ _ member
        obtain ⟨decoded, decodes, same⟩ := Option.map_eq_some_iff.mp shown
        cases same
        have numbered := (List.mem_filter.mp isIn).1
        rw [List.mem_zipIdx_iff_le_and_getElem?_sub] at numbered
        have positive : entry.2 ≠ 0 := by omega
        rw [fileLine, if_neg positive, Option.bind_some, numbered.2, Option.bind_some]
        exact decodes

section Accepted

variable {settings : ReviewSettings} {digest : Digest} {context : ReviewContext}
  {worktree : Worktree}

/-- The line a location of this side refers to: of the file in the worktree, or of
the parent side of the diff. -/
def anchorLine (context : ReviewContext) (worktree : Worktree)
    (location : FindingLocation) (line : Nat) : Option String :=
  match location.side with
  | .parent => Dict.get? context.changedTexts (location.path, .parent, line)
  | .revision =>
      match worktree.resolve location.path with
      | .ok (some target) => fileLine (worktree.content target) line
      | _ => none

/-- A prior finding on deleted code that the diff does not show. -/
structure IsUnanchoredPrior (context : ReviewContext) (finding : Finding) : Prop where
  side : finding.location.side = .parent
  prior : context.isPreviousFinding finding = true
  unanchored : Dict.get? context.changedTexts finding.location.anchor = none

/-- Where a finding is placed. -/
theorem placed_cases {finding : Finding} {location : FindingLocation}
    (ordered : finding.location.Ordered)
    (placed : placeFinding context worktree finding = .ok (some location)) :
    (location = finding.location ∧ IsUnanchoredPrior context finding) ∨
      location.LineOnly ∨
        location.InRange (anchorLine context worktree finding.location) := by
  unfold placeFinding at placed
  split at placed
  · cases placed
  · cases placed
  · rename_i target resolved
    cases side : finding.location.side with
    | parent =>
        rw [side] at placed
        simp only [placeOnParent, Except.ok.injEq] at placed
        split at placed
        · rename_i text known
          cases placed
          apply Or.inr
          have shown : anchorLine context worktree finding.location =
              fun line =>
                Dict.get? context.changedTexts (finding.location.path, .parent, line) := by
            funext line
            rw [anchorLine, side]
          rw [shown]
          apply FindingLocation.fit_cases ordered
          rw [← known, FindingLocation.anchor, side]
        · rename_i unanchored
          split at placed
          · rename_i prior
            cases placed
            exact .inl ⟨rfl, side, prior, unanchored⟩
          · cases placed
    | revision =>
        rw [side] at placed
        apply Or.inr
        simp only [placeInFile] at placed
        split at placed
        · cases placed
        · cases placed
        · split at placed
          · cases placed
          · rename_i lines read_
            split at placed
            · cases placed
            · rename_i text start
              cases placed
              rcases FindingLocation.fit_cases ordered start with line | range
              · exact .inl line
              · apply Or.inr
                apply range.mono
                intro line shown found
                rw [anchorLine, side, resolved]
                exact fileLine_of_readUtf8Lines read_ found

/-- What the checks make of one finding. -/
theorem range_of_checkFinding {finding kept : Finding}
    (ordered : finding.location.Ordered)
    (checked :
      checkFinding settings digest context worktree finding = .ok (some kept)) :
    (kept.location.Ordered ∧ IsUnanchoredPrior context kept) ∨
      kept.location.LineOnly ∨
        kept.location.InRange (anchorLine context worktree kept.location) := by
  have from_ := keptFrom_checkFinding checked
  unfold checkFinding at checked
  split at checked
  · cases checked
  · split at checked
    · cases checked
    · cases checked
    · rename_i location placed
      split at checked
      · cases checked
      · cases checked
        have anchored := from_.anchor
        have identified := from_.semanticId
        rw [Finding.location_ensureFingerprint] at anchored ⊢
        simp only [FindingLocation.anchor, Prod.mk.injEq] at anchored
        obtain ⟨path, side, startLine⟩ := anchored
        have sameLines : anchorLine context worktree finding.location =
            anchorLine context worktree location := by
          funext line
          rw [anchorLine, anchorLine, path, side]
        rcases placed_cases ordered placed with ⟨same, prior⟩ | line | range
        · subst same
          refine .inl ⟨ordered, ?_, ?_, ?_⟩
          · rw [Finding.location_ensureFingerprint]
            exact prior.side
          · rw [← prior.prior, ReviewContext.isPreviousFinding,
              ReviewContext.isPreviousFinding, identified]
          · rw [Finding.location_ensureFingerprint]
            exact prior.unanchored
        · exact .inr (.inl line)
        · rw [sameLines] at range
          exact .inr (.inr range)

/-- The location of a parsed finding is ordered. -/
theorem ordered_of_parsed {raws findings : List Finding}
    (parsed : raws.mapM Finding.modelValidate = .ok findings) {finding : Finding}
    (member : finding ∈ findings) :
    finding.location.Ordered ∧ 1 ≤ finding.location.startLine := by
  obtain ⟨raw, _, accepted⟩ := Except.exists_of_mem_mapM parsed finding member
  unfold Finding.modelValidate at accepted
  obtain ⟨location, located, accepted⟩ := Except.bind_eq_ok.mp accepted
  obtain ⟨_, _, accepted⟩ := Except.bind_eq_ok.mp accepted
  obtain ⟨_, _, accepted⟩ := Except.bind_eq_ok.mp accepted
  obtain ⟨_, _, accepted⟩ := Except.bind_eq_ok.mp accepted
  cases accepted
  exact FindingLocation.ordered_modelValidate located

/-- Every accepted finding, but a prior one on deleted code the diff does not show,
is on a line or on a range within its lines; and its location, stored and read back,
passes the checks as it is. -/
theorem accepted_ranges_well_formed {raws findings accepted : List Finding}
    (parsed : raws.mapM Finding.modelValidate = .ok findings)
    (validated :
      validateAll settings digest context worktree findings = .ok accepted) :
    ∀ finding ∈ accepted,
      (IsUnanchoredPrior context finding ∨ finding.location.LineOnly ∨
          finding.location.InRange (anchorLine context worktree finding.location)) ∧
        finding.location.modelValidate = .ok finding.location := by
  intro kept member
  obtain ⟨finding, isIn, checked⟩ := exists_check_of_mem_validateAll validated member
  obtain ⟨ordered, positive⟩ := ordered_of_parsed parsed isIn
  have anchored := (keptFrom_checkFinding checked).anchor
  simp only [FindingLocation.anchor, Prod.mk.injEq] at anchored
  rw [← anchored.2.2] at positive
  rcases range_of_checkFinding ordered checked with ⟨same, prior⟩ | line | range
  · exact ⟨.inl prior, same.modelValidate_eq positive⟩
  · exact ⟨.inr (.inl line), line.ordered.modelValidate_eq positive⟩
  · exact ⟨.inr (.inr range), range.ordered.modelValidate_eq positive⟩

end Accepted

def rangedAnswer : List Finding :=
  [{ sampleFinding 2 none with
      location := { path := "main.c", startLine := 2, endLine := some 2 } }]

theorem accepted_ranges_well_formed_range :
    ∃ findings accepted,
      rangedAnswer.mapM Finding.modelValidate = .ok findings ∧
        validateAll {} sampleDigest sampleContext sampleWorktree findings = .ok accepted ∧
          accepted.length = 1 ∧
            ∀ finding ∈ accepted,
              (IsUnanchoredPrior sampleContext finding ∨ finding.location.LineOnly ∨
                  finding.location.InRange
                    (anchorLine sampleContext sampleWorktree finding.location)) ∧
                finding.location.modelValidate = .ok finding.location := by
  have parsed : (rangedAnswer.mapM Finding.modelValidate).toOption.isSome = true := by
    decide +kernel
  cases parses : rangedAnswer.mapM Finding.modelValidate with
  | error raised =>
      rw [parses] at parsed
      cases parsed
  | ok findings =>
      have single :
          (rangedAnswer.mapM Finding.modelValidate >>=
            validateAll {} sampleDigest sampleContext sampleWorktree).toOption.map
              List.length = some 1 := by
        decide +kernel
      rw [parses, Except.ok_bind] at single
      cases validates :
          validateAll {} sampleDigest sampleContext sampleWorktree findings with
      | error raised =>
          rw [validates] at single
          cases single
      | ok accepted =>
          rw [validates] at single
          exact
            ⟨findings, accepted, rfl, validates, Option.some.inj single,
              accepted_ranges_well_formed parses validates⟩

end PeReview
