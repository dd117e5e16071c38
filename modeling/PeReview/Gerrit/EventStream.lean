import PeReview.Data.JsonValue
import PeReview.Data.Utf8
import PeReview.Gerrit.Events

/-!
# Reading the event stream

`parse_patchset_created` on what `json.loads` makes of a line, and the loop of
`GerritEventStream.events` that reads the lines of one connection.
-/

namespace PeReview

open PeReview.Data

/-- How the record of a line fails: with a `ValueError`, which the loop answers with
the next line, or with an exception it does not catch. -/
inductive StreamError
  | malformed (error : PyError)
  | uncaught (exception : PyException)
  deriving DecidableEq, Repr

/-- A step that fails with a `ValueError` only. -/
def orMalformed {Value : Type} (result : Except PyError Value) :
    Except StreamError Value :=
  result.mapError .malformed

def streamAccount (fields : Dict String Json) : AccountInfo where
  username := (Json.field fields "username").text
  email := (Json.field fields "email").text
  name := (Json.field fields "name").text

/-- `_positive_int`. -/
def recordPositiveInt (parent : Dict String Json) (key : String) :
    Except StreamError Int :=
  match (Json.field parent key).toInt with
  | .error .overflowError => .error (.uncaught .overflowError)
  | .error _ => orMalformed (streamPositiveInt none key)
  | .ok parsed => orMalformed (streamPositiveInt (some parsed) key)

/-- `_event_created_at`. -/
def recordCreatedAt (value : Json) : Except StreamError (Option Time) :=
  match value.toInt with
  | .error .overflowError => .error (.uncaught .overflowError)
  | .error _ => .ok none
  | .ok timestamp => .ok (eventCreatedAt (some timestamp))

/-- The event of a record, with its fields read in the order of the keywords. -/
def recordEvent (record change patchset : Dict String Json) (project : String) :
    Except StreamError GerritPatchsetEvent := do
  let uploader :=
    ((Json.field record "uploader").fields?).or
      (Json.field patchset "uploader").fields?
  let changeNumber ← recordPositiveInt change "number"
  let patchsetNumber ← recordPositiveInt patchset "number"
  let revisionSha ←
    orMalformed (streamString (Json.field patchset "revision").text "revision")
  let occurredAt ← recordCreatedAt (Json.field record "eventCreatedOn")
  orMalformed <| GerritPatchsetEvent.modelValidate
    { project
      changeNumber
      patchsetNumber
      revisionSha
      ref := optionalString (Json.field patchset "ref").text
      branch := optionalString (Json.field change "branch").text
      changeId := optionalString (Json.field change "id").text
      uploader := accountName (uploader.map streamAccount)
      occurredAt }

/-- `parse_patchset_created`, of a decoded record. -/
def parsePatchsetRecord (allowlist : Option (List String)) (decoded : Json) :
    Except StreamError (Option GerritPatchsetEvent) :=
  match decoded with
  | .object record =>
      if (Json.field record "type").text ≠ some "patchset-created" then .ok none
      else do
        let change ←
          orMalformed (streamMapping (Json.field record "change").fields? "change")
        let patchset ←
          orMalformed (streamMapping (Json.field record "patchSet").fields? "patchSet")
        let project ←
          orMalformed (streamString (Json.field change "project").text "project")
        if allowlist.any fun projects => !projects.contains project then .ok none
        else (recordEvent record change patchset project).map some
  | _ => .error (.malformed (.value "Gerrit stream event must be a JSON object"))

abbrev StreamLine := List UInt8

/-- The limit of the `StreamReader`. -/
def lineLimit : Nat := 65536

/-- The length of a line without its end. -/
def contentLength (line : StreamLine) : Nat :=
  if line.getLast? = some 10 then line.length - 1 else line.length

/-- `parse_patchset_created`, of a line.  `loads` is `json.loads`: it raises a
`ValueError` on a line that is not JSON, and a `RecursionError` (a `RuntimeError`) on one
that is nested too deeply. -/
def parseLine (loads : StreamLine → Except PyException Json)
    (allowlist : Option (List String)) (line : StreamLine) :
    Except StreamError (Option GerritPatchsetEvent) :=
  match loads line with
  | .error .valueError => .error (.malformed (.value "not a JSON document"))
  | .error raised => .error (.uncaught raised)
  | .ok decoded => parsePatchsetRecord allowlist decoded

/-- The lines of one connection: the events it yields and the exception that ends the
receiver, if one does. -/
def readLines (loads : StreamLine → Except PyException Json)
    (allowlist : Option (List String)) :
    List StreamLine → List GerritPatchsetEvent × Option PyException
  | [] => ([], none)
  | line :: rest =>
      -- `readline` raises a `ValueError` of its own, outside the `try`.
      if lineLimit < contentLength line then ([], some .valueError)
      else
        match parseLine loads allowlist line with
        | .error (.malformed _) => readLines loads allowlist rest
        | .error (.uncaught raised) => ([], some raised)
        | .ok none => readLines loads allowlist rest
        | .ok (some event) =>
            let (events, failure) := readLines loads allowlist rest
            (event :: events, failure)

/-! ## A record and what the receiver reads of it -/

def streamNumber (value : Json) : Option Int :=
  value.toInt.toOption

def streamChange (fields : Dict String Json) : StreamChange where
  project := (Json.field fields "project").text
  number := streamNumber (Json.field fields "number")
  branch := (Json.field fields "branch").text
  id := (Json.field fields "id").text

def streamPatchSet (fields : Dict String Json) : StreamPatchSet where
  number := streamNumber (Json.field fields "number")
  revision := (Json.field fields "revision").text
  ref := (Json.field fields "ref").text
  uploader := (Json.field fields "uploader").fields?.map streamAccount

def streamRecord (fields : Dict String Json) : StreamRecord where
  type := (Json.field fields "type").text
  change := (Json.field fields "change").fields?.map streamChange
  patchSet := (Json.field fields "patchSet").fields?.map streamPatchSet
  uploader := (Json.field fields "uploader").fields?.map streamAccount
  eventCreatedOn := streamNumber (Json.field fields "eventCreatedOn")

def IsPositive (value : Json) : Prop :=
  ∃ number, value.toInt = .ok number ∧ 1 ≤ number

/-- The receiver gets to an infinite number of a record whose project it accepts. -/
def ConvertsInfinity (record change patchset : Dict String Json) : Prop :=
  (Json.field change "number").isInfinite = true ∨
    IsPositive (Json.field change "number") ∧
      ((Json.field patchset "number").isInfinite = true ∨
        IsPositive (Json.field patchset "number") ∧
          (∃ revision, (Json.field patchset "revision").text = some revision ∧
            revision ≠ "") ∧
            (Json.field record "eventCreatedOn").isInfinite = true)

/-- The receiver converts an infinite number of a record: every field it reads before
is proper. -/
def ReachesInfinity (allowlist : Option (List String)) (decoded : Json) : Prop :=
  ∃ record change patchset project,
    decoded = .object record ∧
      (Json.field record "type").text = some "patchset-created" ∧
      (Json.field record "change").fields? = some change ∧
      (Json.field record "patchSet").fields? = some patchset ∧
      (Json.field change "project").text = some project ∧ project ≠ "" ∧
      (allowlist.any fun projects => !projects.contains project) = false ∧
      ConvertsInfinity record change patchset

section Records

variable {allowlist : Option (List String)} {record parent : Dict String Json}
  {value : Json} {key : String}

theorem orMalformed_ok {Value : Type} (value : Value) :
    orMalformed (.ok value) = .ok value :=
  rfl

theorem orMalformed_bind {Value Final : Type} (first : Except PyError Value)
    (next : Value → Except PyError Final) :
    orMalformed (first >>= next) =
      orMalformed first >>= fun value => orMalformed (next value) := by
  cases first with
  | error raised => rfl
  | ok value => rfl

theorem recordPositiveInt_infinite
    (infinite : (Json.field parent key).isInfinite = true) :
    recordPositiveInt parent key = .error (.uncaught .overflowError) := by
  unfold recordPositiveInt
  rw [Json.toInt_eq_overflowError.mpr infinite]

theorem recordPositiveInt_finite
    (finite : (Json.field parent key).isInfinite = false) :
    recordPositiveInt parent key =
      orMalformed (streamPositiveInt (streamNumber (Json.field parent key)) key) := by
  have proper : (Json.field parent key).toInt ≠ .error .overflowError := by
    intro raised
    rw [Json.toInt_eq_overflowError, finite] at raised
    cases raised
  unfold recordPositiveInt streamNumber
  generalize (Json.field parent key).toInt = read at proper
  cases read with
  | ok number => rfl
  | error raised =>
      cases raised with
      | overflowError => exact absurd rfl proper
      | typeError | valueError | osError | runtimeError => rfl

theorem recordCreatedAt_infinite (infinite : value.isInfinite = true) :
    recordCreatedAt value = .error (.uncaught .overflowError) := by
  unfold recordCreatedAt
  rw [Json.toInt_eq_overflowError.mpr infinite]

theorem recordCreatedAt_finite (finite : value.isInfinite = false) :
    recordCreatedAt value = .ok (eventCreatedAt (streamNumber value)) := by
  have proper : value.toInt ≠ .error .overflowError := by
    intro raised
    rw [Json.toInt_eq_overflowError, finite] at raised
    cases raised
  unfold recordCreatedAt streamNumber
  generalize value.toInt = read at proper
  cases read with
  | ok number => rfl
  | error raised =>
      cases raised with
      | overflowError => exact absurd rfl proper
      | typeError | valueError | osError | runtimeError => rfl

theorem streamPositiveInt_eq_ok_iff {read : Option Int} {number : Int} :
    streamPositiveInt read key = .ok number ↔ read = some number ∧ 1 ≤ number := by
  cases read with
  | none =>
      simp [streamPositiveInt]
  | some parsed =>
      by_cases small : parsed < 1
      · have refused : ¬(parsed = number ∧ 1 ≤ number) := by omega
        simp [streamPositiveInt, small, refused]
      · have above : parsed = number ↔ parsed = number ∧ 1 ≤ number := by omega
        simpa [streamPositiveInt, small] using above

theorem isPositive_of_streamPositiveInt {number : Int}
    (accepted : streamPositiveInt (streamNumber value) key = .ok number) :
    IsPositive value := by
  rw [streamPositiveInt_eq_ok_iff] at accepted
  obtain ⟨read, least⟩ := accepted
  unfold streamNumber at read
  cases parsed : value.toInt with
  | error raised =>
      rw [parsed] at read
      cases read
  | ok found =>
      rw [parsed] at read
      cases read
      exact ⟨number, parsed, least⟩

theorem streamString_nonempty {text : Option String} {found : String}
    (accepted : streamString text key = .ok found) : text = some found ∧ found ≠ "" := by
  unfold streamString optionalString at accepted
  cases text with
  | none =>
      cases accepted
  | some content =>
      by_cases filled : truthy (some content) = true
      · rw [if_pos filled] at accepted
        cases accepted
        refine ⟨rfl, ?_⟩
        rintro rfl
        cases filled
      · rw [if_neg filled] at accepted
        cases accepted

/-- The event of a record is that of the typed one, unless an infinite number is
converted. -/
theorem recordEvent_finite {change patchset : Dict String Json} {project : String}
    (finite : ¬ConvertsInfinity record change patchset) :
    (recordEvent record change patchset project).map some =
      orMalformed
        (do
          let changeNumber ←
            streamPositiveInt (streamNumber (Json.field change "number")) "number"
          let patchsetNumber ←
            streamPositiveInt (streamNumber (Json.field patchset "number")) "number"
          let revisionSha ←
            streamString (Json.field patchset "revision").text "revision"
          let event ←
            GerritPatchsetEvent.modelValidate
              { project
                changeNumber
                patchsetNumber
                revisionSha
                ref := optionalString (Json.field patchset "ref").text
                branch := optionalString (Json.field change "branch").text
                changeId := optionalString (Json.field change "id").text
                uploader :=
                  accountName
                    (((Json.field record "uploader").fields?.map streamAccount).or
                      ((Json.field patchset "uploader").fields?.map streamAccount))
                occurredAt :=
                  eventCreatedAt (streamNumber (Json.field record "eventCreatedOn")) }
          .ok (some event)) := by
  unfold recordEvent
  unfold ConvertsInfinity at finite
  rw [not_or] at finite
  obtain ⟨finiteChange, finite⟩ := finite
  rw [recordPositiveInt_finite (eq_false_of_ne_true finiteChange)]
  simp only [orMalformed_bind, Option.map_or]
  cases changed :
      streamPositiveInt (streamNumber (Json.field change "number")) "number" with
  | error raised => rfl
  | ok changeNumber =>
      have positive := isPositive_of_streamPositiveInt changed
      rw [not_and, not_or] at finite
      obtain ⟨finitePatchset, finite⟩ := finite positive
      rw [recordPositiveInt_finite (eq_false_of_ne_true finitePatchset)]
      simp only [orMalformed_ok, Except.ok_bind]
      cases numbered :
          streamPositiveInt (streamNumber (Json.field patchset "number")) "number" with
      | error raised => rfl
      | ok patchsetNumber =>
          have positiveToo := isPositive_of_streamPositiveInt numbered
          simp only [orMalformed_ok, Except.ok_bind]
          cases revised :
              streamString (Json.field patchset "revision").text "revision" with
          | error raised => rfl
          | ok revision =>
              have finiteDate :
                  (Json.field record "eventCreatedOn").isInfinite = false := by
                apply eq_false_of_ne_true
                intro infinite
                exact
                  finite
                    ⟨positiveToo, ⟨revision, streamString_nonempty revised⟩, infinite⟩
              rw [recordCreatedAt_finite finiteDate]
              rfl

/-- A record is parsed as the typed one, unless an infinite number is converted. -/
theorem parsePatchsetRecord_finite
    (finite : ¬ReachesInfinity allowlist (.object record)) :
    parsePatchsetRecord allowlist (.object record) =
      orMalformed (parsePatchsetCreated (streamRecord record) allowlist) := by
  unfold parsePatchsetRecord parsePatchsetCreated
  dsimp only [streamRecord]
  by_cases kind : (Json.field record "type").text = some "patchset-created"
  · simp only [kind, ne_eq, not_true_eq_false, if_false]
    cases changeFields : (Json.field record "change").fields? with
    | none => rfl
    | some change =>
        cases patchsetFields : (Json.field record "patchSet").fields? with
        | none => rfl
        | some patchset =>
            simp only [Option.map_some, streamMapping, orMalformed_ok, Except.ok_bind,
              orMalformed_bind, streamChange, streamPatchSet]
            cases named : streamString (Json.field change "project").text "project" with
            | error raised => rfl
            | ok project =>
                obtain ⟨projectText, nonempty⟩ := streamString_nonempty named
                simp only [orMalformed_ok, Except.ok_bind]
                by_cases excluded :
                    (allowlist.any fun projects => !projects.contains project) = true
                · rw [if_pos excluded, if_pos excluded]
                  rfl
                · rw [if_neg excluded, if_neg excluded]
                  have allowed := eq_false_of_ne_true excluded
                  exact
                    recordEvent_finite fun reached =>
                      finite
                        ⟨record, change, patchset, project, rfl, kind, changeFields,
                          patchsetFields, projectText, nonempty, allowed, reached⟩
  · simp only [ne_eq, kind, not_false_eq_true, if_true]
    rfl

theorem recordPositiveInt_positive (positive : IsPositive (Json.field parent key)) :
    ∃ number, recordPositiveInt parent key = .ok number := by
  obtain ⟨number, read, least⟩ := positive
  refine ⟨number, ?_⟩
  have above : ¬number < 1 := by omega
  unfold recordPositiveInt
  rw [read]
  simp only [streamPositiveInt, if_neg above]
  rfl

theorem streamString_of_nonempty {content : String} (nonempty : content ≠ "") :
    streamString (some content) key = .ok content := by
  simp [streamString, optionalString, truthy, nonempty]

theorem recordEvent_infinite {change patchset : Dict String Json} {project : String}
    (infinite : ConvertsInfinity record change patchset) :
    recordEvent record change patchset project = .error (.uncaught .overflowError) := by
  unfold recordEvent
  rcases infinite with first | ⟨positive, second | ⟨positiveToo, revised, third⟩⟩
  · rw [recordPositiveInt_infinite first]
    rfl
  · obtain ⟨changeNumber, changed⟩ := recordPositiveInt_positive positive
    rw [changed, recordPositiveInt_infinite second]
    rfl
  · obtain ⟨changeNumber, changed⟩ := recordPositiveInt_positive positive
    obtain ⟨patchsetNumber, numbered⟩ := recordPositiveInt_positive positiveToo
    obtain ⟨revision, text, nonempty⟩ := revised
    rw [changed, numbered, text, streamString_of_nonempty nonempty,
      recordCreatedAt_infinite third]
    rfl

theorem parsePatchsetRecord_infinite {decoded : Json}
    (infinite : ReachesInfinity allowlist decoded) :
    parsePatchsetRecord allowlist decoded = .error (.uncaught .overflowError) := by
  obtain ⟨record, change, patchset, project, rfl, kind, changeFields, patchsetFields,
    text, nonempty, allowed, converts⟩ := infinite
  unfold parsePatchsetRecord
  simp only [kind, ne_eq, not_true_eq_false, if_false, changeFields, patchsetFields,
    streamMapping, orMalformed_ok, Except.ok_bind, text,
    streamString_of_nonempty nonempty, allowed, Bool.false_eq_true,
    recordEvent_infinite converts]
  rfl

/-- The event a decoded value describes, if it is a well-formed patch-set event of an
accepted project. -/
def describedEvent (allowlist : Option (List String)) (decoded : Json) :
    Option GerritPatchsetEvent :=
  decoded.fields?.bind fun record =>
    (parsePatchsetCreated (streamRecord record) allowlist).toOption.join

/-- What the receiver may do with a value: skip it, take a proper event from it, or
raise a `ValueError`. -/
def Proper (outcome : Except StreamError (Option GerritPatchsetEvent)) : Prop :=
  match outcome with
  | .ok none => True
  | .ok (some event) =>
      1 ≤ event.changeNumber ∧ 1 ≤ event.patchsetNumber ∧ event.revisionSha ≠ ""
  | .error (.malformed _) => True
  | .error (.uncaught _) => False

theorem proper_of_parsed {typed : StreamRecord} {event : GerritPatchsetEvent}
    (parsed : parsePatchsetCreated typed allowlist = .ok (some event)) :
    1 ≤ event.changeNumber ∧ 1 ≤ event.patchsetNumber ∧ event.revisionSha ≠ "" := by
  unfold parsePatchsetCreated at parsed
  split at parsed
  · cases parsed
  · obtain ⟨change, hasChange, parsed⟩ := Except.bind_eq_ok.mp parsed
    obtain ⟨patchset, hasPatchset, parsed⟩ := Except.bind_eq_ok.mp parsed
    obtain ⟨project, _, parsed⟩ := Except.bind_eq_ok.mp parsed
    split at parsed
    · cases parsed
    · obtain ⟨changeNumber, changed, parsed⟩ := Except.bind_eq_ok.mp parsed
      obtain ⟨patchsetNumber, numbered, parsed⟩ := Except.bind_eq_ok.mp parsed
      obtain ⟨revision, revised, parsed⟩ := Except.bind_eq_ok.mp parsed
      obtain ⟨accepted, validated, parsed⟩ := Except.bind_eq_ok.mp parsed
      obtain ⟨_, _, same⟩ := Except.bind_eq_ok.mp validated
      cases parsed
      cases same
      exact
        ⟨(streamPositiveInt_eq_ok_iff.mp changed).2,
          (streamPositiveInt_eq_ok_iff.mp numbered).2,
          (streamString_nonempty revised).2⟩

theorem parsePatchsetRecord_of_finite {decoded : Json}
    (finite : ¬ReachesInfinity allowlist decoded) :
    Proper (parsePatchsetRecord allowlist decoded) ∧
      ∀ event, parsePatchsetRecord allowlist decoded = .ok (some event) ↔
        describedEvent allowlist decoded = some event := by
  cases decoded with
  | object record =>
      rw [parsePatchsetRecord_finite finite]
      simp only [describedEvent, Json.fields?, Option.bind_some]
      cases parsed : parsePatchsetCreated (streamRecord record) allowlist with
      | error raised =>
          refine ⟨True.intro, ?_⟩
          intro event
          simp [orMalformed, Except.mapError, Except.toOption]
      | ok found =>
          cases found with
          | none =>
              refine ⟨True.intro, ?_⟩
              intro event
              simp [orMalformed, Except.mapError, Except.toOption]
          | some found =>
              refine ⟨proper_of_parsed parsed, ?_⟩
              intro event
              simp [orMalformed, Except.mapError, Except.toOption]
  | null | bool value | int value | float value | string text | array items =>
      refine ⟨True.intro, ?_⟩
      intro event
      simp [parsePatchsetRecord, describedEvent, Json.fields?]

end Records

/-! ## The lines of a connection -/

section Lines

variable {loads : StreamLine → Except PyException Json}
  {allowlist : Option (List String)} {line : StreamLine} {lines : List StreamLine}

/-- A line that ends the receiver: it is longer than `readline` takes, `json.loads`
raises what is not a `ValueError` on it, or an infinite number of it is converted. -/
def Fatal (loads : StreamLine → Except PyException Json)
    (allowlist : Option (List String)) (line : StreamLine) : Prop :=
  lineLimit < contentLength line ∨
    (∃ raised, loads line = .error raised ∧ raised ≠ .valueError) ∨
      ∃ decoded, loads line = .ok decoded ∧ ReachesInfinity allowlist decoded

def lineEvent (loads : StreamLine → Except PyException Json)
    (allowlist : Option (List String)) (line : StreamLine) :
    Option GerritPatchsetEvent :=
  (loads line).toOption.bind (describedEvent allowlist)

/-- A line that is not fatal is skipped or gives its event. -/
theorem parseLine_of_not_fatal (harmless : ¬Fatal loads allowlist line) :
    (∃ error, parseLine loads allowlist line = .error (.malformed error) ∧
        lineEvent loads allowlist line = none) ∨
      parseLine loads allowlist line = .ok (lineEvent loads allowlist line) := by
  unfold parseLine lineEvent
  cases loaded : loads line with
  | error raised =>
      have caught : raised = .valueError := by
        by_contra other
        exact harmless (.inr (.inl ⟨raised, loaded, other⟩))
      subst caught
      exact .inl ⟨_, rfl, rfl⟩
  | ok decoded =>
      have finite : ¬ReachesInfinity allowlist decoded := by
        intro infinite
        exact harmless (.inr (.inr ⟨decoded, loaded, infinite⟩))
      obtain ⟨proper, described⟩ := parsePatchsetRecord_of_finite finite
      simp only [Except.toOption, Option.bind_some]
      cases outcome : parsePatchsetRecord allowlist decoded with
      | error raised =>
          cases raised with
          | uncaught exception =>
              rw [outcome] at proper
              cases proper
          | malformed error =>
              refine .inl ⟨error, rfl, ?_⟩
              rw [Option.eq_none_iff_forall_ne_some]
              intro event found
              rw [← described, outcome] at found
              cases found
      | ok found =>
          refine .inr ?_
          cases found with
          | some event =>
              rw [(described event).mp outcome]
          | none =>
              have nothing : describedEvent allowlist decoded = none := by
                rw [Option.eq_none_iff_forall_ne_some]
                intro event found
                rw [← described, outcome] at found
                cases found
              rw [nothing]

/-- Without a fatal line the receiver reads them all, and yields their events. -/
theorem readLines_of_harmless (harmless : ∀ line ∈ lines, ¬Fatal loads allowlist line) :
    readLines loads allowlist lines =
      (lines.filterMap (lineEvent loads allowlist), none) := by
  induction lines with
  | nil =>
      rfl
  | cons line rest inductionHypothesis =>
      rw [List.forall_mem_cons] at harmless
      have short : ¬lineLimit < contentLength line :=
        fun long => harmless.1 (.inl long)
      have later := inductionHypothesis harmless.2
      rw [readLines, if_neg short]
      rcases parseLine_of_not_fatal harmless.1 with ⟨error, skipped, nothing⟩ | taken
      · rw [skipped, List.filterMap_cons_none nothing]
        exact later
      · rw [taken]
        cases found : lineEvent loads allowlist line with
        | none =>
            rw [List.filterMap_cons_none found]
            exact later
        | some event =>
            rw [List.filterMap_cons_some found, later]

/-- A fatal line ends the receiver. -/
theorem harmless_of_readLines (survives : (readLines loads allowlist lines).2 = none) :
    ∀ line ∈ lines, ¬Fatal loads allowlist line := by
  induction lines with
  | nil =>
      intro line member
      cases member
  | cons line rest inductionHypothesis =>
      have harmless : ¬Fatal loads allowlist line := by
        rintro (long | ⟨raised, loaded, other⟩ | ⟨decoded, loaded, infinite⟩)
        · rw [readLines, if_pos long] at survives
          cases survives
        · rw [readLines, parseLine, loaded] at survives
          split at survives
          · cases survives
          · cases raised with
            | valueError => exact other rfl
            | typeError | overflowError | osError | runtimeError => cases survives
        · rw [readLines, parseLine, loaded] at survives
          split at survives
          · cases survives
          · simp only [parsePatchsetRecord_infinite infinite] at survives
            cases survives
      rw [List.forall_mem_cons]
      refine ⟨harmless, inductionHypothesis ?_⟩
      have short : ¬lineLimit < contentLength line := fun long => harmless (.inl long)
      rw [readLines, if_neg short] at survives
      rcases parseLine_of_not_fatal harmless with ⟨error, skipped, _⟩ | taken
      · rw [skipped] at survives
        exact survives
      · rw [taken] at survives
        cases found : lineEvent loads allowlist line with
        | none | some event =>
            rw [found] at survives
            exact survives

end Lines

/-- Every value of a stream is skipped, gives a proper event or raises a `ValueError`,
and the loop survives the lines and yields exactly their well-formed events in order,
if and only if no line is fatal. -/
theorem stream_survives_iff (loads : StreamLine → Except PyException Json)
    (allowlist : Option (List String)) (lines : List StreamLine) :
    ((∀ line ∈ lines, ∀ decoded, loads line = .ok decoded →
        Proper (parsePatchsetRecord allowlist decoded)) ∧
      readLines loads allowlist lines =
        (lines.filterMap (lineEvent loads allowlist), none)) ↔
      ∀ line ∈ lines, ¬Fatal loads allowlist line := by
  constructor
  · rintro ⟨_, survives⟩
    exact harmless_of_readLines (congrArg Prod.snd survives)
  · intro harmless
    refine ⟨?_, readLines_of_harmless harmless⟩
    intro line member decoded loaded
    have finite : ¬ReachesInfinity allowlist decoded := by
      intro infinite
      exact harmless line member (.inr (.inr ⟨decoded, loaded, infinite⟩))
    exact (parsePatchsetRecord_of_finite finite).1

/-- A line with `1e999` for the number of its change. -/
def infiniteLine : StreamLine :=
  encodeUtf8
    ("\x7b\"type\":\"patchset-created\",\"change\":\x7b\"project\":\"fw\",\"number\":1e999\x7d," ++
      "\"patchSet\":\x7b\"number\":1,\"revision\":\"a1b2c3d\"\x7d\x7d\n").toList

/-- What `json.loads` makes of it. -/
def infiniteRecord : Json :=
  .object
    [("type", .string "patchset-created"),
      ("change",
        .object [("project", .string "fw"), ("number", .float (.infinite false))]),
      ("patchSet", .object [("number", .int 1), ("revision", .string "a1b2c3d")])]

/-- The line ends the receiver. -/
theorem stream_ended_by_infinity :
    readLines
        (fun line => if line = infiniteLine then .ok infiniteRecord else .error .valueError)
        none [infiniteLine] =
      ([], some .overflowError) := by
  have short : ¬lineLimit < contentLength infiniteLine := by decide +kernel
  have parsed : parsePatchsetRecord none infiniteRecord =
      .error (.uncaught .overflowError) := by
    rfl
  rw [readLines, if_neg short, parseLine, if_pos rfl]
  dsimp only
  rw [parsed]

end PeReview
