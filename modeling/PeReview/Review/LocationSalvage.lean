import PeReview.Data.JsonValue
import PeReview.Data.Overlay
import PeReview.Review.Parsing

/-!
# Salvaging the locations of model findings

`_normalize_model_finding_locations` of `review/native.py` drops the optional
coordinates of a location that its model would refuse, so that the finding is not
lost with them.
-/

namespace PeReview

open PeReview.Data

/-! ## Decoding a finding -/

/-- The conversions of pydantic's lax mode to a number.  An `int` is accepted as
itself and `None` is refused. -/
structure Pydantic where
  integer : Json → Option Int
  number : Json → Option Rat
  integer_int : ∀ value, integer (.int value) = some value
  integer_null : integer .null = none

def fieldError {Value : Type} (name detail : String) : Except PyError Value :=
  .error (.value (name ++ ": " ++ detail))

/-- An `int` field with `ge=low`. -/
def natField (pydantic : Pydantic) (name : String) (low : Nat) (value : Json) :
    Except PyError Nat :=
  match pydantic.integer value with
  | none => fieldError name "Input should be a valid integer"
  | some number =>
      if number < low then
        fieldError name ("Input should be greater than or equal to " ++ toString low)
      else .ok number.toNat

/-- An `int | None` field with `ge=low`. -/
def optionalNat (pydantic : Pydantic) (name : String) (low : Nat) (value : Json) :
    Except PyError (Option Nat) :=
  match value with
  | .null => .ok none
  | value => (natField pydantic name low value).map some

/-- A `str` field. -/
def textField (name : String) (value : Json) : Except PyError String :=
  value.text.elim (fieldError name "Input should be a valid string") .ok

/-- A `str | None` field. -/
def optionalText (name : String) (value : Json) : Except PyError (Option String) :=
  match value with
  | .null => .ok none
  | value => (textField name value).map some

def enumField {Value : Type} (name : String) (ofValue : String → Option Value)
    (value : Json) : Except PyError Value :=
  (value.text.bind ofValue).elim (fieldError name "Input should be an enum value") .ok

/-- The same, or `None`. -/
def optionalEnum {Value : Type} (name : String) (ofValue : String → Option Value)
    (value : Json) : Except PyError (Option Value) :=
  match value with
  | .null => .ok none
  | value => (enumField name ofValue value).map some

def DiffSide.ofValue : String → Option DiffSide
  | "REVISION" => some .revision
  | "PARENT" => some .parent
  | _ => none

def Severity.ofValue : String → Option Severity
  | "P0" => some .p0
  | "P1" => some .p1
  | "P2" => some .p2
  | _ => none

def FindingLineage.ofValue : String → Option FindingLineage
  | "NEW" => some .new
  | "PERSISTING" => some .persisting
  | "REOPENED" => some .reopened
  | _ => none

/-- The fields of a `FindingLocation`. -/
def FindingLocation.ofFields (pydantic : Pydantic) (fields : Dict String Json) :
    Except PyError FindingLocation := do
  let path ← textField "path" (Json.field fields "path")
  let side ←
    enumField "side" DiffSide.ofValue (Json.fieldOr fields "side" (.string "REVISION"))
  let startLine ← natField pydantic "start_line" 1 (Json.field fields "start_line")
  let startCharacter ←
    natField pydantic "start_character" 0
      (Json.fieldOr fields "start_character" (.int 0))
  let endLine ← optionalNat pydantic "end_line" 1 (Json.field fields "end_line")
  let endCharacter ←
    optionalNat pydantic "end_character" 0 (Json.field fields "end_character")
  .ok { path, side, startLine, startCharacter, endLine, endCharacter }

/-- `FindingLocation.model_validate`, of a decoded object. -/
def FindingLocation.parse (pydantic : Pydantic) (fields : Dict String Json) :
    Except PyError FindingLocation := do
  let location ← FindingLocation.ofFields pydantic fields
  location.modelValidate

def locationField (pydantic : Pydantic) : Json → Except PyError FindingLocation
  | .object fields => FindingLocation.parse pydantic fields
  | _ => fieldError "location" "Input should be a valid dictionary"

/-- `Finding.model_validate`, of a decoded object. -/
def Finding.parse (pydantic : Pydantic) (fields : Dict String Json) :
    Except PyError Finding := do
  let severity ←
    enumField "severity" Severity.ofValue (Json.field fields "severity")
  let category ← textField "category" (Json.field fields "category")
  let title ← textField "title" (Json.field fields "title")
  let message ← textField "message" (Json.field fields "message")
  let impact ← textField "impact" (Json.field fields "impact")
  let evidence ← textField "evidence" (Json.field fields "evidence")
  let remediation ← optionalText "remediation" (Json.field fields "remediation")
  let location ← locationField pydantic (Json.field fields "location")
  let confidence ←
    (pydantic.number (Json.fieldOr fields "confidence" (.float (.finite 1)))).elim
      (fieldError "confidence" "Input should be a valid number") .ok
  Except.require (0 ≤ confidence && confidence ≤ 1)
    (.value "confidence: Input should be between 0 and 1")
  let fingerprint ← optionalText "fingerprint" (Json.field fields "fingerprint")
  let semanticId ← optionalText "semantic_id" (Json.field fields "semantic_id")
  Except.require (semanticId.all isSemanticId)
    (.value "semantic_id: String should match pattern '^[0-9a-f]\x7b32\x7d$'")
  let lineage ←
    optionalEnum "lineage" FindingLineage.ofValue (Json.field fields "lineage")
  .ok
    { severity, category, title, message, impact, evidence, remediation, location
      confidence, fingerprint, semanticId, lineage }

/-! ## The salvage -/

/-- `location.pop("end_line", None)` and the same for `end_character`. -/
def dropEnd (location : Dict String Json) : Dict String Json :=
  Dict.erase (Dict.erase location "end_line") "end_character"

/-- The loop body of `_normalize_model_finding_locations`, from a good start line
on. -/
def normalizeRange (location : Dict String Json) (startLine : Int) :
    Dict String Json :=
  match (Json.fieldOr location "start_character" (.int 0)).exactInt with
  | none => dropStart location
  | some startCharacter =>
      if startCharacter < 0 then dropStart location
      else
        match Json.field location "end_line" with
        | .null => Dict.erase location "end_character"
        | .int endLine =>
            if endLine < startLine then dropEnd location
            else
              match Json.field location "end_character" with
              | .null => location
              | .int endCharacter =>
                  if endCharacter < 0 then dropEnd location
                  else if endLine = startLine ∧ endCharacter ≤ startCharacter then
                    -- A same-line range without width falls back to its line.
                    dropEnd location
                  else location
              | _ => dropEnd location
        | _ => dropEnd location
where
  /-- A bad start character goes with the end of the range. -/
  dropStart (location : Dict String Json) : Dict String Json :=
    let location := Dict.erase location "start_character"
    match Json.field location "end_line", Json.field location "end_character" with
    | .null, .null => location
    | _, _ => dropEnd location

/-- `_normalize_model_finding_locations`, of one location. -/
def normalizeLocation (location : Dict String Json) : Dict String Json :=
  match (Json.field location "start_line").exactInt with
  | none => location
  | some startLine =>
      if startLine < 1 then location else normalizeRange location startLine

/-- `_normalize_model_finding_locations`, of one finding. -/
def normalizeFinding : Json → Json
  | .object finding =>
      match Json.field finding "location" with
      | .object location =>
          .object (Dict.set finding "location" (.object (normalizeLocation location)))
      | _ => .object finding
  | other => other

/-- `_normalize_model_finding_locations`. -/
def normalizeModelFindingLocations : Json → Json
  | .object data =>
      match Json.field data "findings" with
      | .array findings =>
          .object (Dict.set data "findings" (.array (findings.map normalizeFinding)))
      | _ => .object data
  | other => other

def findingAt (data : Json) (index : Nat) : Option (Dict String Json) :=
  match data with
  | .object fields =>
      match Json.field fields "findings" with
      | .array findings =>
          match findings[index]? with
          | some (.object finding) => some finding
          | _ => none
      | _ => none
  | _ => none

/-! ## What a location reads -/

section Locations

variable {pydantic : Pydantic} {location other : Dict String Json}

@[simp]
theorem field_erase {key wanted : String} :
    Json.field (Dict.erase location key) wanted =
      if wanted = key then .null else Json.field location wanted := by
  unfold Json.field
  rw [Dict.get?_erase]
  split <;> rfl

@[simp]
theorem fieldOr_erase {key wanted : String} {default : Json} :
    Json.fieldOr (Dict.erase location key) wanted default =
      if wanted = key then default else Json.fieldOr location wanted default := by
  unfold Json.fieldOr
  rw [Dict.get?_erase]
  split <;> rfl

/-- The path, the side and the start line of a location are accepted. -/
structure Anchored (pydantic : Pydantic) (location : Dict String Json)
    (anchor : FindingLocation) : Prop where
  path : textField "path" (Json.field location "path") = .ok anchor.path
  side :
    enumField "side" DiffSide.ofValue
      (Json.fieldOr location "side" (.string "REVISION")) = .ok anchor.side
  startLine :
    natField pydantic "start_line" 1 (Json.field location "start_line") =
      .ok anchor.startLine

/-- Two locations are anchored at the same place. -/
def FindingLocation.SameAnchor (location other : FindingLocation) : Prop :=
  location.path = other.path ∧ location.side = other.side ∧
    location.startLine = other.startLine

theorem natField_eq_ok {name : String} {low number : Nat} {value : Json} :
    natField pydantic name low value = .ok number ↔
      ∃ read : Int, pydantic.integer value = some read ∧ (low : Int) ≤ read ∧
        read.toNat = number := by
  unfold natField
  cases pydantic.integer value with
  | none =>
      simp [fieldError]
  | some read =>
      by_cases small : read < low
      · have refused : ¬(low : Int) ≤ read := by omega
        simp [small, refused, fieldError]
      · have accepted : (low : Int) ≤ read := by omega
        simp [small, accepted]

/-- An `int` within the bound is read as it is. -/
theorem natField_int {name : String} {low : Nat} {number : Int}
    (bounded : (low : Int) ≤ number) :
    natField pydantic name low (.int number) = .ok number.toNat :=
  natField_eq_ok.mpr ⟨number, pydantic.integer_int number, bounded, rfl⟩

theorem validateRange_anchor {raw parsed : FindingLocation}
    (accepted : raw.validateRange = .ok parsed) : parsed.SameAnchor raw := by
  unfold FindingLocation.validateRange at accepted
  split at accepted
  · split at accepted
    · cases accepted
    · cases accepted
      exact ⟨rfl, rfl, rfl⟩
  · split at accepted
    · cases accepted
    · split at accepted
      · split at accepted
        · cases accepted
          exact ⟨rfl, rfl, rfl⟩
        · split at accepted
          · cases accepted
          · cases accepted
            exact ⟨rfl, rfl, rfl⟩
      · cases accepted
        exact ⟨rfl, rfl, rfl⟩

theorem modelValidate_anchor {raw parsed : FindingLocation}
    (accepted : raw.modelValidate = .ok parsed) : parsed.SameAnchor raw := by
  unfold FindingLocation.modelValidate at accepted
  obtain ⟨_, _, accepted⟩ := Except.bind_eq_ok.mp accepted
  obtain ⟨_, _, accepted⟩ := Except.bind_eq_ok.mp accepted
  exact validateRange_anchor accepted

/-- An accepted location is anchored where it says. -/
theorem anchored_of_parse {parsed : FindingLocation}
    (accepted : FindingLocation.parse pydantic location = .ok parsed) :
    Anchored pydantic location parsed := by
  obtain ⟨raw, read, validated⟩ := Except.bind_eq_ok.mp accepted
  obtain ⟨samePath, sameSide, sameLine⟩ := modelValidate_anchor validated
  unfold FindingLocation.ofFields at read
  obtain ⟨path, readPath, read⟩ := Except.bind_eq_ok.mp read
  obtain ⟨side, readSide, read⟩ := Except.bind_eq_ok.mp read
  obtain ⟨startLine, readLine, read⟩ := Except.bind_eq_ok.mp read
  obtain ⟨startCharacter, _, read⟩ := Except.bind_eq_ok.mp read
  obtain ⟨endLine, _, read⟩ := Except.bind_eq_ok.mp read
  obtain ⟨endCharacter, _, read⟩ := Except.bind_eq_ok.mp read
  cases read
  exact
    { path := by rw [samePath]; exact readPath
      side := by rw [sameSide]; exact readSide
      startLine := by rw [sameLine]; exact readLine }

theorem Anchored.same {first second : FindingLocation}
    (anchored : Anchored pydantic location first)
    (anchoredToo : Anchored pydantic location second) : first.SameAnchor second := by
  have paths := anchored.path.symm.trans anchoredToo.path
  have sides := anchored.side.symm.trans anchoredToo.side
  have lines := anchored.startLine.symm.trans anchoredToo.startLine
  exact ⟨Except.ok.inj paths, Except.ok.inj sides, Except.ok.inj lines⟩

/-- The anchor is read from three fields. -/
theorem Anchored.congr {anchor : FindingLocation}
    (anchored : Anchored pydantic location anchor)
    (path : Json.field other "path" = Json.field location "path")
    (side :
      Json.fieldOr other "side" (.string "REVISION") =
        Json.fieldOr location "side" (.string "REVISION"))
    (startLine : Json.field other "start_line" = Json.field location "start_line") :
    Anchored pydantic other anchor where
  path := by rw [path]; exact anchored.path
  side := by rw [side]; exact anchored.side
  startLine := by rw [startLine]; exact anchored.startLine

/-- The optional coordinates make a range of integers from a start line on: no end,
or one that is not before the start. -/
def GoodRange (location : Dict String Json) (startLine : Int) : Prop :=
  ∃ startCharacter : Int,
    Json.fieldOr location "start_character" (.int 0) = .int startCharacter ∧
      0 ≤ startCharacter ∧
      (Json.field location "end_line" = .null ∧
          Json.field location "end_character" = .null ∨
        ∃ endLine : Int, Json.field location "end_line" = .int endLine ∧
          startLine ≤ endLine ∧
          (Json.field location "end_character" = .null ∨
            ∃ endCharacter : Int,
              Json.field location "end_character" = .int endCharacter ∧
                0 ≤ endCharacter ∧
                (endLine = startLine → startCharacter < endCharacter)))

/-- A location whose coordinates make a range is accepted. -/
theorem parse_of_goodRange {anchor : FindingLocation} {startLine : Int}
    (anchored : Anchored pydantic location anchor)
    (exactLine : Json.field location "start_line" = .int startLine)
    (good : GoodRange location startLine) :
    ∃ parsed, FindingLocation.parse pydantic location = .ok parsed := by
  obtain ⟨path, side, line⟩ := anchored
  have lines := line
  rw [exactLine, natField_eq_ok] at lines
  obtain ⟨read, accepted, bounded, same⟩ := lines
  rw [pydantic.integer_int, Option.some.injEq] at accepted
  subst accepted
  obtain ⟨startCharacter, character, nonNegative, ends⟩ := good
  have first :
      natField pydantic "start_character" 0 (.int startCharacter) =
        .ok startCharacter.toNat :=
    natField_int nonNegative
  unfold FindingLocation.parse FindingLocation.ofFields
  rw [path, side, line, character, first]
  simp only [Except.ok_bind]
  rcases ends with ⟨noLine, noCharacter⟩ | ⟨endLine, lastLine, ordered, ends⟩
  · rw [noLine, noCharacter]
    have atLeast : 1 ≤ anchor.startLine := by omega
    simp [optionalNat, FindingLocation.modelValidate, Except.require, atLeast,
      FindingLocation.validateRange]
  · have last :
        optionalNat pydantic "end_line" 1 (.int endLine) = .ok (some endLine.toNat) := by
      have read : natField pydantic "end_line" 1 (.int endLine) = .ok endLine.toNat :=
        natField_int (bounded.trans ordered)
      simp only [optionalNat, read]
      rfl
    have atLeast : 1 ≤ anchor.startLine := by omega
    have lineAtLeast : 1 ≤ endLine.toNat := by omega
    have inOrder : ¬endLine.toNat < anchor.startLine := by omega
    rw [lastLine, last]
    rcases ends with noCharacter | ⟨endCharacter, lastCharacter, positive, wide⟩
    · rw [noCharacter]
      by_cases single : endLine.toNat = anchor.startLine
      · simp [optionalNat, FindingLocation.modelValidate, Except.require, atLeast,
          FindingLocation.validateRange, single]
      · simp [optionalNat, FindingLocation.modelValidate, Except.require, atLeast,
          FindingLocation.validateRange, single, lineAtLeast, inOrder]
    · have character :
          optionalNat pydantic "end_character" 0 (.int endCharacter) =
            .ok (some endCharacter.toNat) := by
        have read :
            natField pydantic "end_character" 0 (.int endCharacter) =
              .ok endCharacter.toNat :=
          natField_int positive
        simp only [optionalNat, read]
        rfl
      rw [lastCharacter, character]
      by_cases single : endLine.toNat = anchor.startLine
      · have after : ¬endCharacter.toNat ≤ startCharacter.toNat := by
          have later := wide (by omega)
          omega
        simp [FindingLocation.modelValidate, Except.require, atLeast,
          FindingLocation.validateRange, single, after]
      · simp [FindingLocation.modelValidate, Except.require, atLeast,
          FindingLocation.validateRange, single, lineAtLeast, inOrder]

/-! ## What the salvage leaves -/

theorem exactInt_eq_some {value : Json} {number : Int} :
    value.exactInt = some number ↔ value = .int number := by
  cases value <;> simp [Json.exactInt]

/-- Without a range, a location is good. -/
theorem goodRange_dropEnd {startLine startCharacter : Int}
    (character :
      Json.fieldOr location "start_character" (.int 0) = .int startCharacter)
    (nonNegative : 0 ≤ startCharacter) : GoodRange (dropEnd location) startLine := by
  refine ⟨startCharacter, ?_, nonNegative, .inl ⟨?_, ?_⟩⟩
  · simpa [dropEnd] using character
  · simp [dropEnd]
  · simp [dropEnd]

theorem goodRange_dropStart {startLine : Int} :
    GoodRange (normalizeRange.dropStart location) startLine := by
  unfold normalizeRange.dropStart
  have character :
      Json.fieldOr (Dict.erase location "start_character") "start_character" (.int 0) =
        .int 0 := by
    simp
  dsimp only
  split
  · rename_i noLine noCharacter
    exact ⟨0, character, le_refl 0, .inl ⟨noLine, noCharacter⟩⟩
  · exact goodRange_dropEnd character (le_refl 0)

/-- Whatever the optional coordinates are, those that are left make a range. -/
theorem goodRange_normalizeRange {startLine : Int} :
    GoodRange (normalizeRange location startLine) startLine := by
  unfold normalizeRange
  split
  · exact goodRange_dropStart
  · rename_i startCharacter exactCharacter
    rw [exactInt_eq_some] at exactCharacter
    split
    · exact goodRange_dropStart
    · rename_i nonNegative
      have bounded : 0 ≤ startCharacter := by omega
      split
      · rename_i noLine
        refine ⟨startCharacter, ?_, bounded, .inl ⟨?_, ?_⟩⟩
        · simpa using exactCharacter
        · simpa using noLine
        · simp
      · rename_i endLine lastLine
        split
        · exact goodRange_dropEnd exactCharacter bounded
        · rename_i ordered
          have inOrder : startLine ≤ endLine := by omega
          split
          · rename_i noCharacter
            exact
              ⟨startCharacter, exactCharacter, bounded,
                .inr ⟨endLine, lastLine, inOrder, .inl noCharacter⟩⟩
          · rename_i endCharacter lastCharacter
            split
            · exact goodRange_dropEnd exactCharacter bounded
            · rename_i positive
              split
              · exact goodRange_dropEnd exactCharacter bounded
              · rename_i wide
                refine
                  ⟨startCharacter, exactCharacter, bounded,
                    .inr ⟨endLine, lastLine, inOrder,
                      .inr ⟨endCharacter, lastCharacter, ?_, ?_⟩⟩⟩
                · omega
                · intro single
                  by_contra narrow
                  exact wide ⟨single, by omega⟩
          · exact goodRange_dropEnd exactCharacter bounded
      · exact goodRange_dropEnd exactCharacter bounded

/-- A range of integers, with no character where there is no end line. -/
def IntegerRange (location : Dict String Json) : Prop :=
  ∃ startLine : Int, Json.field location "start_line" = .int startLine ∧
    1 ≤ startLine ∧ GoodRange location startLine ∧
      (Json.field location "end_line" = .null →
        Dict.get? location "end_character" = none)

/-- A location that already has a range of integers is left unchanged. -/
theorem normalizeLocation_of_integerRange (good : IntegerRange location) :
    normalizeLocation location = location := by
  obtain ⟨startLine, line, positive, range, alone⟩ := good
  obtain ⟨startCharacter, character, nonNegative, ends⟩ := range
  have kept : ¬startCharacter < 0 := by omega
  have above : ¬startLine < 1 := by omega
  unfold normalizeLocation normalizeRange
  simp only [line, character, Json.exactInt, if_neg kept, if_neg above]
  rcases ends with ⟨noLine, _⟩ | ⟨endLine, lastLine, ordered, ends⟩
  · simp only [noLine]
    exact Dict.erase_eq_self (alone noLine)
  · have inOrder : ¬endLine < startLine := by omega
    simp only [lastLine, if_neg inOrder]
    rcases ends with noCharacter | ⟨endCharacter, lastCharacter, least, wide⟩
    · simp only [noCharacter]
    · have atLeast : ¬endCharacter < 0 := by omega
      have wider : ¬(endLine = startLine ∧ endCharacter ≤ startCharacter) := by
        rintro ⟨single, narrow⟩
        have later := wide single
        omega
      simp only [lastCharacter, if_neg atLeast, if_neg wider]

/-- The salvage removes optional coordinates only. -/
theorem field_normalizeRange {startLine : Int} {key : String}
    (noStart : key ≠ "start_character") (noLine : key ≠ "end_line")
    (noEnd : key ≠ "end_character") :
    Dict.get? (normalizeRange location startLine) key = Dict.get? location key := by
  have ended : ∀ fields : Dict String Json,
      Dict.get? (dropEnd fields) key = Dict.get? fields key := by
    intro fields
    rw [dropEnd, Dict.get?_erase, if_neg noEnd, Dict.get?_erase, if_neg noLine]
  have started :
      Dict.get? (normalizeRange.dropStart location) key = Dict.get? location key := by
    have erased :
        Dict.get? (Dict.erase location "start_character") key =
          Dict.get? location key := by
      rw [Dict.get?_erase, if_neg noStart]
    unfold normalizeRange.dropStart
    dsimp only
    split
    · exact erased
    · rw [ended, erased]
  unfold normalizeRange
  split
  · exact started
  · split
    · exact started
    · split
      · rw [Dict.get?_erase, if_neg noEnd]
      · split
        · exact ended location
        · split
          · rfl
          · split
            · exact ended location
            · split
              · exact ended location
              · rfl
          · exact ended location
      · exact ended location

theorem get?_normalizeLocation {key : String} (noStart : key ≠ "start_character")
    (noLine : key ≠ "end_line") (noEnd : key ≠ "end_character") :
    Dict.get? (normalizeLocation location) key = Dict.get? location key := by
  unfold normalizeLocation
  split
  · rfl
  · split
    · rfl
    · exact field_normalizeRange noStart noLine noEnd

/-- A start line in another form than an `int` is not looked at. -/
theorem normalizeLocation_of_not_int
    (another : ¬∃ startLine, Json.field location "start_line" = .int startLine) :
    normalizeLocation location = location := by
  unfold normalizeLocation
  split
  · rfl
  · rename_i startLine isInt
    exact absurd ⟨startLine, exactInt_eq_some.mp isInt⟩ another

end Locations

section Findings

variable {pydantic : Pydantic} {fields location : Dict String Json}

theorem field_set {key wanted : String} {value : Json} :
    Json.field (Dict.set fields key value) wanted =
      if key = wanted then value else Json.field fields wanted := by
  unfold Json.field
  rw [Dict.get?_set]
  split <;> rfl

theorem fieldOr_set {key wanted : String} {value default : Json} :
    Json.fieldOr (Dict.set fields key value) wanted default =
      if key = wanted then value else Json.fieldOr fields wanted default := by
  unfold Json.fieldOr
  rw [Dict.get?_set]
  split <;> rfl

theorem locationField_of_parse {finding : Finding}
    (accepted : Finding.parse pydantic fields = .ok finding) :
    locationField pydantic (Json.field fields "location") = .ok finding.location := by
  unfold Finding.parse at accepted
  obtain ⟨severity, _, accepted⟩ := Except.bind_eq_ok.mp accepted
  obtain ⟨category, _, accepted⟩ := Except.bind_eq_ok.mp accepted
  obtain ⟨title, _, accepted⟩ := Except.bind_eq_ok.mp accepted
  obtain ⟨message, _, accepted⟩ := Except.bind_eq_ok.mp accepted
  obtain ⟨impact, _, accepted⟩ := Except.bind_eq_ok.mp accepted
  obtain ⟨evidence, _, accepted⟩ := Except.bind_eq_ok.mp accepted
  obtain ⟨remediation, _, accepted⟩ := Except.bind_eq_ok.mp accepted
  obtain ⟨place, located, accepted⟩ := Except.bind_eq_ok.mp accepted
  obtain ⟨confidence, _, accepted⟩ := Except.bind_eq_ok.mp accepted
  obtain ⟨_, _, accepted⟩ := Except.bind_eq_ok.mp accepted
  obtain ⟨fingerprint, _, accepted⟩ := Except.bind_eq_ok.mp accepted
  obtain ⟨semanticId, _, accepted⟩ := Except.bind_eq_ok.mp accepted
  obtain ⟨_, _, accepted⟩ := Except.bind_eq_ok.mp accepted
  obtain ⟨lineage, _, accepted⟩ := Except.bind_eq_ok.mp accepted
  cases accepted
  exact located

/-- The other fields of an accepted finding are accepted with any good location. -/
theorem parse_relocated {finding : Finding} {value : Json} {place : FindingLocation}
    (accepted : Finding.parse pydantic fields = .ok finding)
    (located : locationField pydantic value = .ok place) :
    Finding.parse pydantic (Dict.set fields "location" value) =
      .ok { finding with location := place } := by
  unfold Finding.parse at accepted
  obtain ⟨severity, readSeverity, accepted⟩ := Except.bind_eq_ok.mp accepted
  obtain ⟨category, readCategory, accepted⟩ := Except.bind_eq_ok.mp accepted
  obtain ⟨title, readTitle, accepted⟩ := Except.bind_eq_ok.mp accepted
  obtain ⟨message, readMessage, accepted⟩ := Except.bind_eq_ok.mp accepted
  obtain ⟨impact, readImpact, accepted⟩ := Except.bind_eq_ok.mp accepted
  obtain ⟨evidence, readEvidence, accepted⟩ := Except.bind_eq_ok.mp accepted
  obtain ⟨remediation, readRemediation, accepted⟩ := Except.bind_eq_ok.mp accepted
  obtain ⟨_, _, accepted⟩ := Except.bind_eq_ok.mp accepted
  obtain ⟨confidence, readConfidence, accepted⟩ := Except.bind_eq_ok.mp accepted
  obtain ⟨_, within, accepted⟩ := Except.bind_eq_ok.mp accepted
  obtain ⟨fingerprint, readFingerprint, accepted⟩ := Except.bind_eq_ok.mp accepted
  obtain ⟨semanticId, readSemanticId, accepted⟩ := Except.bind_eq_ok.mp accepted
  obtain ⟨_, shaped, accepted⟩ := Except.bind_eq_ok.mp accepted
  obtain ⟨lineage, readLineage, accepted⟩ := Except.bind_eq_ok.mp accepted
  cases accepted
  unfold Finding.parse
  simp only [field_set, fieldOr_set, if_true, String.reduceEq, if_false,
    readSeverity, readCategory, readTitle, readMessage, readImpact, readEvidence,
    readRemediation, located, readConfidence, within, readFingerprint, readSemanticId,
    shaped, readLineage, Except.ok_bind]

def anchorOnly (location : Dict String Json) : Dict String Json :=
  dropEnd (Dict.erase location "start_character")

theorem get?_anchorOnly {key : String} (noStart : key ≠ "start_character")
    (noLine : key ≠ "end_line") (noEnd : key ≠ "end_character") :
    Dict.get? (anchorOnly location) key = Dict.get? location key := by
  rw [anchorOnly, dropEnd, Dict.get?_erase, if_neg noEnd, Dict.get?_erase,
    if_neg noLine, Dict.get?_erase, if_neg noStart]

/-- Locations with the same path, side and start line have the same anchor. -/
theorem Anchored.of_get? {other : Dict String Json} {anchor : FindingLocation}
    (anchored : Anchored pydantic location anchor)
    (same : ∀ key, key ≠ "start_character" → key ≠ "end_line" →
      key ≠ "end_character" → Dict.get? other key = Dict.get? location key) :
    Anchored pydantic other anchor := by
  apply anchored.congr
  · unfold Json.field
    rw [same "path" (by decide) (by decide) (by decide)]
  · unfold Json.fieldOr
    rw [same "side" (by decide) (by decide) (by decide)]
  · unfold Json.field
    rw [same "start_line" (by decide) (by decide) (by decide)]

/-- A start line that is an `int` is all the salvage needs. -/
theorem parse_normalizeLocation {anchor : FindingLocation} {startLine : Int}
    (anchored : Anchored pydantic location anchor)
    (exactLine : Json.field location "start_line" = .int startLine) :
    ∃ place, FindingLocation.parse pydantic (normalizeLocation location) = .ok place := by
  have positive : ¬startLine < 1 := by
    have line := anchored.startLine
    rw [exactLine, natField_eq_ok] at line
    obtain ⟨read, accepted, bounded, _⟩ := line
    rw [pydantic.integer_int, Option.some.injEq] at accepted
    omega
  have salvaged : normalizeLocation location = normalizeRange location startLine := by
    simp only [normalizeLocation, exactLine, Json.exactInt, if_neg positive]
  have line : Json.field (normalizeLocation location) "start_line" = .int startLine := by
    unfold Json.field at exactLine ⊢
    rw [get?_normalizeLocation (by decide) (by decide) (by decide)]
    exact exactLine
  have anchor := anchored.of_get? fun key => get?_normalizeLocation
  apply parse_of_goodRange anchor line
  rw [salvaged]
  exact goodRange_normalizeRange

/-- Only the location of a finding is changed. -/
theorem findingAt_normalize {data : Json} {index : Nat}
    {finding : Dict String Json} (listed : findingAt data index = some finding)
    (located : Json.field finding "location" = .object location) :
    findingAt (normalizeModelFindingLocations data) index =
      some
        (Dict.set finding "location" (.object (normalizeLocation location))) := by
  unfold findingAt at listed
  split at listed
  · rename_i fields
    split at listed
    · rename_i findings answer
      split at listed
      · rename_i found entry
        rw [Option.some.injEq] at listed
        subst listed
        simp only [normalizeModelFindingLocations, answer, findingAt, field_set,
          if_true, List.getElem?_map, entry, Option.map_some, normalizeFinding,
          located]
      · cases listed
    · cases listed
  · cases listed

end Findings

/-- The salvage is complete exactly when the start line is an `int`, or else the
optional coordinates are accepted as they stand: it looks at nothing when the start
line is a number in another form. -/
theorem location_salvage_complete_iff (pydantic : Pydantic) {data : Json}
    {index : Nat} {finding location : Dict String Json} {anchor : Finding}
    (listed : findingAt data index = some finding)
    (located : Json.field finding "location" = .object location)
    (accepted :
      Finding.parse pydantic
        (Dict.set finding "location" (.object (anchorOnly location))) =
          .ok anchor) :
    (∃ salvaged,
        findingAt (normalizeModelFindingLocations data) index = some salvaged ∧
          (∃ parsed, Finding.parse pydantic salvaged = .ok parsed ∧
            parsed.location.SameAnchor anchor.location) ∧
          (IntegerRange location →
            Json.field salvaged "location" = .object location)) ↔
      (∃ startLine, Json.field location "start_line" = .int startLine) ∨
        ∃ place, FindingLocation.parse pydantic location = .ok place := by
  have salvage := findingAt_normalize listed located
  have anchored : Anchored pydantic location anchor.location := by
    have place := locationField_of_parse accepted
    rw [field_set, if_pos rfl] at place
    apply (anchored_of_parse place).of_get?
    intro key noStart noLine noEnd
    rw [get?_anchorOnly noStart noLine noEnd]
  constructor
  · rintro ⟨salvaged, found, ⟨parsed, parses, _⟩, _⟩
    rw [salvage, Option.some.injEq] at found
    subst found
    by_cases exactLine : ∃ startLine, Json.field location "start_line" = .int startLine
    · exact .inl exactLine
    · have place := locationField_of_parse parses
      rw [field_set, if_pos rfl, normalizeLocation_of_not_int exactLine] at place
      exact .inr ⟨parsed.location, place⟩
  · intro condition
    obtain ⟨place, parses⟩ :
        ∃ place,
          FindingLocation.parse pydantic (normalizeLocation location) = .ok place := by
      by_cases exactLine :
          ∃ startLine, Json.field location "start_line" = .int startLine
      · obtain ⟨startLine, exactLine⟩ := exactLine
        exact parse_normalizeLocation anchored exactLine
      · rw [normalizeLocation_of_not_int exactLine]
        exact condition.resolve_left exactLine
    have moved :
        Finding.parse pydantic
            (Dict.set finding "location" (.object (normalizeLocation location))) =
          .ok { anchor with location := place } := by
      rw [← Dict.set_set finding "location" (.object (anchorOnly location))]
      exact parse_relocated accepted parses
    refine ⟨_, salvage, ⟨_, moved, ?_⟩, ?_⟩
    · have kept := anchored.of_get? fun key => get?_normalizeLocation
      exact (anchored_of_parse parses).same kept
    · intro range
      rw [field_set, if_pos rfl, normalizeLocation_of_integerRange range]

/-- Numbers, whole floats and decimal texts, as pydantic reads them. -/
def laxPydantic : Pydantic where
  integer
    | .int value => some value
    | .bool value => some (if value then 1 else 0)
    | .float (.finite value) => if value.den = 1 then some value.num else none
    | .string text => intOfText text
    | _ => none
  number
    | .int value => some value
    | .bool value => some (if value then 1 else 0)
    | .float (.finite value) => some value
    | _ => none
  integer_int _ := rfl
  integer_null := rfl

def locatedFinding (location : Dict String Json) : Dict String Json :=
  [("severity", .string "P1"), ("category", .string "init"),
    ("title", .string "reset"), ("message", .string "m"), ("impact", .string "i"),
    ("evidence", .string "e"), ("location", .object location)]

def oneFinding (location : Dict String Json) : Json :=
  .object [("findings", .array [.object (locatedFinding location)])]

/-- A location with a text in place of its start character. -/
def textStart : Dict String Json :=
  [("path", .string "a.c"), ("start_line", .int 2),
    ("start_character", .string "bad"), ("end_line", .int 5)]

/-- The text costs the range, not the finding. -/
theorem location_salvage_complete_text :
    ∃ salvaged parsed,
      findingAt (normalizeModelFindingLocations (oneFinding textStart)) 0 =
        some salvaged ∧
      Finding.parse laxPydantic salvaged = .ok parsed := by
  have listed : findingAt (oneFinding textStart) 0 = some (locatedFinding textStart) :=
    rfl
  have complete := location_salvage_complete_iff laxPydantic listed rfl rfl
  obtain ⟨salvaged, found, ⟨parsed, parses, _⟩, _⟩ := complete.mpr (.inl ⟨2, rfl⟩)
  exact ⟨salvaged, parsed, found, parses⟩

/-- A start line given as `12.0` is accepted, but then an end character that is not
a number still costs the finding. -/
theorem location_salvage_misses_float :
    (Finding.parse laxPydantic
        (locatedFinding
          [("path", .string "a.c"),
            ("start_line", .float (.finite 12))])).toOption.isSome = true ∧
      ((findingAt
            (normalizeModelFindingLocations
              (oneFinding
                [("path", .string "a.c"), ("start_line", .float (.finite 12)),
                  ("end_character", .string "bad")])) 0).bind fun salvaged =>
          (Finding.parse laxPydantic salvaged).toOption).isNone = true := by
  constructor
  · rfl
  · rfl

end PeReview
