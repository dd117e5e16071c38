import Mathlib.Data.List.Sort
import PeReview.Data.Dict
import PeReview.Review.Settings

/-!
# Local validation of findings

`review/validator.py`: which findings of the model are kept, and where they are
anchored.
-/

namespace PeReview

open PeReview.Data

/-- The worktree of the reviewed revision, as `pathlib` shows it.  Resolving a path
and asking for its kind may raise. -/
structure Worktree where
  /-- `(root / path).resolve()`, unless it lies outside the root. -/
  resolve : String → Except PyError (Option String)
  /-- `target.is_file()`. -/
  isFile : String → Except PyError Bool
  /-- The bytes of a file that can be read. -/
  content : String → Option (List UInt8)

/-- The lines of a file opened in binary mode, without their line feeds. -/
def byteLines (content : List UInt8) : List (List UInt8) :=
  let lines := content.splitOn 10
  if lines.getLast? = some [] then lines.dropLast else lines

/-- `raw_line.rstrip(b"\r\n").decode("utf-8")`. -/
def decodeLine (line : List UInt8) : Option String :=
  let kept := (line.reverse.dropWhile fun byte => byte = 13 ∨ byte = 10).reverse
  String.fromUTF8? ⟨kept.toArray⟩

/-- `_read_utf8_lines`. -/
def readUtf8Lines (content : Option (List UInt8)) (lineNumbers : List Nat) :
    Option (Dict Nat String) :=
  let wanted := lineNumbers.filter fun line => 0 < line
  if wanted = [] then some []
  else
    match content with
    | none => none
    | some bytes =>
        let read := (byteLines bytes).zipIdx 1
        (read.filter fun entry => wanted.contains entry.2).mapM fun entry =>
          (decodeLine entry.1).map fun text => (entry.2, text)

namespace FindingLocation

/-- `_degrade_to_line_anchor`. -/
def degradeToLineAnchor (location : FindingLocation) : FindingLocation :=
  { location with startCharacter := 0, endLine := none, endCharacter := none }

def fitStart (startText : String) (location : FindingLocation) : FindingLocation :=
  if location.endLine = none then { location with startCharacter := 0 }
  else if startText.length < location.startCharacter then
    location.degradeToLineAnchor
  else location

def fitEnd (lineText : Nat → Option String) (location : FindingLocation) :
    FindingLocation :=
  match location.endLine with
  | none => location
  | some endLine =>
      match lineText endLine with
      | none => location.degradeToLineAnchor
      | some endText =>
          match location.endCharacter with
          | none => { location with endCharacter := some endText.length }
          | some endCharacter =>
              if endText.length < endCharacter then location.degradeToLineAnchor
              else location

def fit (startText : String) (lineText : Nat → Option String)
    (location : FindingLocation) : FindingLocation :=
  (location.fitStart startText).fitEnd lineText

def anchor (location : FindingLocation) : String × DiffSide × Nat :=
  (location.path, location.side, location.startLine)

@[simp]
theorem anchor_degradeToLineAnchor (location : FindingLocation) :
    location.degradeToLineAnchor.anchor = location.anchor :=
  rfl

@[simp]
theorem anchor_fitStart (startText : String) (location : FindingLocation) :
    (location.fitStart startText).anchor = location.anchor := by
  unfold fitStart
  split
  · rfl
  · split <;> rfl

@[simp]
theorem anchor_fitEnd (lineText : Nat → Option String)
    (location : FindingLocation) :
    (location.fitEnd lineText).anchor = location.anchor := by
  unfold fitEnd
  split
  · rfl
  · split
    · rfl
    · split
      · rfl
      · split <;> rfl

/-- Fitting a range does not move its anchor. -/
@[simp]
theorem anchor_fit (startText : String) (lineText : Nat → Option String)
    (location : FindingLocation) :
    (location.fit startText lineText).anchor = location.anchor := by
  simp [fit]

end FindingLocation

namespace ReviewContext

/-- `changed_lines`, the texts of the changed lines by their place. -/
def changedTexts (context : ReviewContext) :
    Dict (String × DiffSide × Nat) String :=
  context.changedLines.foldl
    (fun texts line => Dict.set texts (line.path, line.side, line.line) line.text) []

def changedPlaces (context : ReviewContext) : List (String × DiffSide × Nat) :=
  context.changedLines.map fun line => (line.path, line.side, line.line)

/-- `previous_semantic_ids`. -/
def previousSemanticIds (context : ReviewContext) : List String :=
  context.previousFindings.filterMap Finding.semanticId

/-- `is_previous_finding`. -/
def isPreviousFinding (context : ReviewContext) (finding : Finding) : Bool :=
  match finding.semanticId with
  | none => false
  | some semanticId => context.previousSemanticIds.contains semanticId

/-- Only a changed line has a text. -/
theorem mem_changedPlaces {context : ReviewContext}
    {place : String × DiffSide × Nat} {text : String}
    (known : Dict.get? context.changedTexts place = some text) :
    place ∈ context.changedPlaces := by
  have build : ∀ (lines : List ChangedLine)
      (texts : Dict (String × DiffSide × Nat) String),
      Dict.get?
          (lines.foldl
            (fun texts line =>
              Dict.set texts (line.path, line.side, line.line) line.text) texts)
          place = some text →
        Dict.get? texts place = some text ∨
          place ∈ lines.map fun line => (line.path, line.side, line.line) := by
    intro lines
    induction lines with
    | nil =>
        exact fun texts found => .inl found
    | cons line rest inductionHypothesis =>
        intro texts found
        rcases inductionHypothesis _ found with early | later
        · rw [Dict.get?_set] at early
          split at early
          · rename_i same
            rw [← same]
            exact .inr List.mem_cons_self
          · exact .inl early
        · exact .inr (List.mem_cons_of_mem _ later)
  rcases build context.changedLines [] known with nothing | changed
  · cases nothing
  · exact changed

end ReviewContext

/-- The categories the validator leaves to other tools. -/
def isStyleCategory (category : String) : Bool :=
  ["style", "naming", "documentation", "formatting"].contains
    (pyStrip category).toLower

def Severity.order : Severity → Nat
  | .p0 => 0
  | .p1 => 1
  | .p2 => 2

/-- Findings in the order of `(severity, -confidence)`. -/
def Finding.Before (first second : Finding) : Prop :=
  first.severity.order < second.severity.order ∨
    (first.severity = second.severity ∧ second.confidence ≤ first.confidence)

instance : DecidableRel Finding.Before :=
  fun _ _ => inferInstanceAs (Decidable (_ ∨ _))

/-- `findings.sort(key=lambda item: (severity_order[item.severity],
-item.confidence))`. -/
def sortFindings (findings : List Finding) : List Finding :=
  findings.insertionSort Finding.Before

section Validation

variable (settings : ReviewSettings) (digest : Digest) (context : ReviewContext)
  (worktree : Worktree)

/-- A deleted-code finding is fitted to the parent side of the diff. -/
def placeOnParent (finding : Finding) : Option FindingLocation :=
  let location := finding.location
  match Dict.get? context.changedTexts location.anchor with
  | some text =>
      some <| location.fit text fun line =>
        Dict.get? context.changedTexts (location.path, .parent, line)
  | none => if context.isPreviousFinding finding then some location else none

/-- A finding in current code is fitted to the file. -/
def placeInFile (target : String) (location : FindingLocation) :
    Except PyError (Option FindingLocation) :=
  match worktree.isFile target with
  | .error error => .error error
  | .ok false => .ok none
  | .ok true =>
      match
        readUtf8Lines (worktree.content target)
          (location.startLine :: location.endLine.toList) with
      | none => .ok none
      | some lines =>
          match Dict.get? lines location.startLine with
          | none => .ok none
          | some text => .ok (some (location.fit text (Dict.get? lines)))

/-- A finding that is not out of scope, at its place in the worktree. -/
def placeFinding (finding : Finding) : Except PyError (Option FindingLocation) :=
  match worktree.resolve finding.location.path with
  | .error error => .error error
  | .ok none => .ok none
  | .ok (some target) =>
      match finding.location.side with
      | .parent => .ok (placeOnParent context finding)
      | .revision => placeInFile worktree target finding.location

/-- The checks before the worktree is looked at. -/
def outOfScope (finding : Finding) : Bool :=
  finding.confidence < settings.minConfidence ||
    (!context.isPreviousFinding finding &&
      (!context.changedFiles.contains finding.location.path ||
        (Dict.get? context.changedTexts finding.location.anchor).isNone))

/-- The body of the loop of `validate_all`, up to the fingerprint: what is kept of
a finding. -/
def checkFinding (finding : Finding) : Except PyError (Option Finding) :=
  if outOfScope settings context finding then .ok none
  else
    match placeFinding context worktree finding with
    | .error error => .error error
    | .ok none => .ok none
    | .ok (some location) =>
        if isStyleCategory finding.category then .ok none
        else
          .ok <| some <|
            ({ finding with location }).ensureFingerprint digest context.project

/-- The loop of `validate_all`, with the fingerprints seen and the findings accepted
so far. -/
def acceptFindings :
    List Finding → List String → List Finding → Except PyError (List Finding)
  | [], _, accepted => .ok accepted
  | finding :: rest, seen, accepted =>
      match checkFinding settings digest context worktree finding with
      | .error error => .error error
      | .ok none => acceptFindings rest seen accepted
      | .ok (some kept) =>
          let fingerprint := kept.fingerprint.getD ""
          if seen.contains fingerprint then acceptFindings rest seen accepted
          else acceptFindings rest (seen ++ [fingerprint]) (accepted ++ [kept])

/-- `validate_all`. -/
def validateAll (findings : List Finding) : Except PyError (List Finding) :=
  match acceptFindings settings digest context worktree findings [] [] with
  | .error error => .error error
  | .ok accepted => .ok (sortFindings accepted)

end Validation

/-! ## What is kept of a finding -/

section Kept

variable {settings : ReviewSettings} {digest : Digest} {context : ReviewContext}
  {worktree : Worktree}

theorem anchor_placeFinding {finding : Finding} {location : FindingLocation}
    (placed : placeFinding context worktree finding = .ok (some location)) :
    location.anchor = finding.location.anchor := by
  unfold placeFinding at placed
  split at placed
  · cases placed
  · cases placed
  · split at placed
    · simp only [placeOnParent, Except.ok.injEq] at placed
      split at placed
      · cases placed
        rw [FindingLocation.anchor_fit]
      · split at placed
        · cases placed
          rfl
        · cases placed
    · unfold placeInFile at placed
      split at placed
      · cases placed
      · cases placed
      · split at placed
        · cases placed
        · split at placed
          · cases placed
          · cases placed
            rw [FindingLocation.anchor_fit]

@[simp]
theorem Finding.location_ensureFingerprint (digest : Digest) (project : String)
    (finding : Finding) :
    (finding.ensureFingerprint digest project).location = finding.location := by
  unfold ensureFingerprint
  split <;> rfl

@[simp]
theorem Finding.semanticId_ensureFingerprint (digest : Digest) (project : String)
    (finding : Finding) :
    (finding.ensureFingerprint digest project).semanticId = finding.semanticId := by
  unfold ensureFingerprint
  split <;> rfl

/-- What the checks keep of a finding: its anchor and its identifier; and it is
anchored on a changed line or it is a prior finding. -/
structure KeptFrom (context : ReviewContext) (finding kept : Finding) : Prop where
  anchor : kept.location.anchor = finding.location.anchor
  semanticId : kept.semanticId = finding.semanticId
  placed :
    context.isPreviousFinding finding ∨
      finding.location.anchor ∈ context.changedPlaces

theorem keptFrom_checkFinding {finding kept : Finding}
    (checked :
      checkFinding settings digest context worktree finding = .ok (some kept)) :
    KeptFrom context finding kept := by
  unfold checkFinding at checked
  split at checked
  · cases checked
  · rename_i inScope
    split at checked
    · cases checked
    · cases checked
    · rename_i location placed
      split at checked
      · cases checked
      · cases checked
        refine ⟨?_, ?_, ?_⟩
        · rw [Finding.location_ensureFingerprint]
          exact anchor_placeFinding placed
        · rw [Finding.semanticId_ensureFingerprint]
        · by_cases previous : context.isPreviousFinding finding
          · exact .inl previous
          · refine .inr ?_
            cases known : Dict.get? context.changedTexts finding.location.anchor with
            | none =>
                simp [outOfScope, previous, known] at inScope
            | some text =>
                exact ReviewContext.mem_changedPlaces known

/-- Every accepted finding is what the checks keep of a finding of the model. -/
theorem exists_of_mem_acceptFindings {findings : List Finding} {seen : List String}
    {accepted result : List Finding}
    (ran :
      acceptFindings settings digest context worktree findings seen accepted =
        .ok result) :
    ∀ kept ∈ result, kept ∈ accepted ∨
      ∃ finding ∈ findings, KeptFrom context finding kept := by
  induction findings generalizing seen accepted with
  | nil =>
      cases ran
      exact fun kept member => .inl member
  | cons finding rest inductionHypothesis =>
      have later : ∀ {seen : List String} {accepted : List Finding},
          acceptFindings settings digest context worktree rest seen accepted =
            .ok result →
          ∀ kept ∈ result, kept ∈ accepted ∨
            ∃ other ∈ finding :: rest, KeptFrom context other kept := by
        intro seen accepted ran kept member
        rcases inductionHypothesis ran kept member with old | ⟨other, isIn, from_⟩
        · exact .inl old
        · exact .inr ⟨other, List.mem_cons_of_mem finding isIn, from_⟩
      unfold acceptFindings at ran
      split at ran
      · cases ran
      · exact later ran
      · rename_i checkedKept checked
        dsimp only at ran
        split at ran
        · exact later ran
        · intro kept member
          rcases later ran kept member with old | new
          · rcases List.mem_append.mp old with older | last
            · exact .inl older
            · rw [List.mem_singleton.mp last]
              exact
                .inr ⟨finding, List.mem_cons_self, keptFrom_checkFinding checked⟩
          · exact .inr new

theorem mem_sortFindings {finding : Finding} {findings : List Finding} :
    finding ∈ sortFindings findings ↔ finding ∈ findings :=
  List.mem_insertionSort Finding.Before

/-- Every finding that `validate_all` returns is what the checks keep of a finding
of the model. -/
theorem exists_of_mem_validateAll {findings result : List Finding}
    (validated :
      validateAll settings digest context worktree findings = .ok result) :
    ∀ kept ∈ result, ∃ finding ∈ findings, KeptFrom context finding kept := by
  intro kept member
  unfold validateAll at validated
  split at validated
  · cases validated
  · rename_i accepted ran
    cases validated
    rw [mem_sortFindings] at member
    rcases exists_of_mem_acceptFindings ran kept member with nothing | known
    · cases nothing
    · exact known

end Kept

end PeReview
