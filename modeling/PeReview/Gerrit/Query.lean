import PeReview.Data.Dict
import PeReview.Data.Except
import PeReview.Data.Json
import PeReview.Service.Calls

/-!
# The query for open changes

`query_recent_open_changes` of `GerritRestClient`, with the timestamps and the
parsing of changes it rests on.  The server answers each request by its number,
so that it may answer the same query differently at another time.
-/

namespace PeReview

open PeReview.Data

section Calendar

def isLeapYear (year : Nat) : Bool :=
  year % 4 = 0 && (year % 100 ≠ 0 || year % 400 = 0)

def monthLengths (year : Nat) : List Nat :=
  [31, if isLeapYear year then 29 else 28, 31, 30, 31, 30, 31, 31, 30, 31, 30, 31]

def monthAndDay : List Nat → Nat → Nat → Nat × Nat
  | [], month, day => (month, day + 1)
  | length :: rest, month, day =>
      if day < length then (month, day + 1)
      else monthAndDay rest (month + 1) (day - length)

/-- `date.fromordinal`, with the days counted from 0 at 0001-01-01. -/
def dateFromOrdinal (days : Nat) : Nat × Nat × Nat :=
  let cycle := days % 146097
  let century := min 3 (cycle / 36524)
  let ofCentury := cycle - century * 36524
  let ofFour := ofCentury % 1461
  let single := min 3 (ofFour / 365)
  let year :=
    days / 146097 * 400 + century * 100 + ofCentury / 1461 * 4 + single + 1
  (year, monthAndDay (monthLengths year) 1 (ofFour - single * 365))

def zeroPadded (width number : Nat) : String :=
  let digits := toString number
  String.ofList (List.replicate (width - digits.length) '0') ++ digits

/-- `strftime("%Y-%m-%d %H:%M:%S")` of so many seconds since 0001-01-01; the year has no
leading zeros. -/
def datetimeText (seconds : Nat) : String :=
  let (year, month, day) := dateFromOrdinal (seconds / 86400)
  let ofDay := seconds % 86400
  toString year ++ "-" ++ zeroPadded 2 month ++ "-" ++ zeroPadded 2 day ++
    " " ++ zeroPadded 2 (ofDay / 3600) ++ ":" ++
    zeroPadded 2 (ofDay / 60 % 60) ++ ":" ++ zeroPadded 2 (ofDay % 60)

example : datetimeText 63925131662 = "2026-09-16 05:01:02" := by decide +kernel

/-- The seconds from 0001-01-01 to 1970-01-01. -/
def unixEpoch : Nat :=
  62135596800

/-- The seconds from 1970-01-01 to 10000-01-01, the first a `datetime` does not
reach. -/
def unixEnd : Nat :=
  253402300800

end Calendar

/-- A `datetime`: microseconds since 0001-01-01, and whether it has a time zone. -/
structure Datetime where
  instant : Time
  aware : Bool := true
  deriving DecidableEq, Repr

/-- A timestamp of Gerrit: its whole seconds since 0001-01-01, which are those of a `datetime`,
and its nanoseconds. -/
structure GerritTimestamp where
  base : Nat
  nanoseconds : Nat
  bounded : nanoseconds < 1000000000
  representable : base < unixEpoch + unixEnd
  deriving DecidableEq, Repr

/-- The nanoseconds of a timestamp since 0001-01-01. -/
def GerritTimestamp.instant (value : GerritTimestamp) : Nat :=
  value.base * 1000000000 + value.nanoseconds

/-- The value of a field that should hold a timestamp. -/
inductive TimestampField
  | missing
  | malformed (text : String)
  | valid (value : GerritTimestamp)
  deriving DecidableEq, Repr

/-- A boundary of a search, to the millisecond. -/
structure SearchBoundary where
  base : Nat
  milliseconds : Nat
  bounded : milliseconds < 1000
  deriving DecidableEq, Repr

namespace SearchBoundary

def instant (boundary : SearchBoundary) : Nat :=
  boundary.base * 1000000000 + boundary.milliseconds * 1000000

def text (boundary : SearchBoundary) : String :=
  datetimeText boundary.base ++ "." ++ zeroPadded 3 boundary.milliseconds ++
    " +0000"

end SearchBoundary

/-- `_gerrit_search_boundary` of a well-formed timestamp. -/
def GerritTimestamp.searchBoundary (value : GerritTimestamp) : SearchBoundary :=
  let milliseconds :=
    if value.nanoseconds % 1000000 = 0 then value.nanoseconds / 1000000
    else value.nanoseconds / 1000000 + 1
  if inside : milliseconds < 1000 then
    { base := value.base, milliseconds, bounded := inside }
  else { base := value.base + 1, milliseconds := 0, bounded := by decide }

/-- The boundary is a `datetime`: the carry does not lead out of the year 9999. -/
def GerritTimestamp.hasBoundary (value : GerritTimestamp) : Bool :=
  value.searchBoundary.base < unixEpoch + unixEnd

/-- `_gerrit_search_boundary`, for a value that is a string. -/
def gerritSearchBoundary (field : TimestampField) :
    Except PyError (Option SearchBoundary) :=
  match field with
  | .missing => .ok none
  | .malformed text =>
      .error
        (.transient
          ("Gerrit response has invalid updated timestamp " ++ reprString text))
  | .valid value =>
      if value.hasBoundary then .ok (some value.searchBoundary)
      else .error (.overflow "date value out of range")

/-- `_gerrit_timestamp`, to the microsecond. -/
def gerritTimestamp : TimestampField → Option Time
  | .missing | .malformed _ => none
  | .valid value => some (value.base * 1000000 + value.nanoseconds / 1000)

/-- The metadata of one revision in a `ChangeInfo`. -/
structure RevisionInfo where
  number : Option Int
  ref : Option String := none
  created : TimestampField := .missing
  commitMessage : Option String := none
  deriving DecidableEq, Repr

/-- The fields of a `ChangeInfo` the client reads.  A field with a value of
another type is `none`. -/
structure ChangeInfo where
  project : Option String
  number : Option Int
  currentRevision : Option String
  /-- The revisions by their hash; `none` inside is no mapping. -/
  revisions : Option (Dict String (Option RevisionInfo))
  status : Option String
  branch : Option String := none
  changeId : Option String := none
  subject : Option String := none
  updated : TimestampField := .missing
  moreChanges : Bool := false
  deriving DecidableEq, Repr

/-- `GerritChange`, with the identity of the change. -/
structure OpenChange extends GerritChange where
  project : String
  changeNumber : Int
  patchsetNumber : Int
  changeId : Option String
  updated : TimestampField
  revisionCreated : Option Time
  deriving DecidableEq, Repr

/-- `_required_positive_int`. -/
def requiredPositiveInt (value : Option Int) (key : String) : Except PyError Int :=
  match value with
  | none =>
      .error
        (.transient ("Gerrit response has invalid integer field '" ++ key ++ "'"))
  | some parsed =>
      if parsed < 1 then
        .error
          (.transient
            ("Gerrit response has non-positive integer field '" ++ key ++ "'"))
      else .ok parsed

/-- `_optional_string`. -/
def optionalString (value : Option String) : Option String :=
  if truthy value then value else none

/-- A required string of a `ChangeInfo`. -/
def requiredString (value : Option String) (message : String) :
    Except PyError String :=
  match optionalString value with
  | none => .error (.transient message)
  | some text => .ok text

/-- `_parse_change`. -/
def parseChange (payload : ChangeInfo) (expectedProject : String)
    (expectedNumber : Int) : Except PyError OpenChange := do
  Except.require
    (payload.project = some expectedProject && payload.number = some expectedNumber)
    (.permanent
      ("Gerrit returned change identity inconsistent with the requested " ++
        "project/change"))
  let currentRevision ← requiredString payload.currentRevision
    "Gerrit ChangeInfo is missing current_revision"
  let some revisions := payload.revisions
    | .error (.transient "Gerrit ChangeInfo is missing revisions")
  let some (some revision) := Dict.get? revisions currentRevision
    | .error
        (.transient "Gerrit ChangeInfo is missing current revision metadata")
  let status ← requiredString payload.status "Gerrit ChangeInfo is missing status"
  let patchsetNumber ← requiredPositiveInt revision.number "_number"
  .ok
    { project := expectedProject
      changeNumber := expectedNumber
      currentRevision
      patchsetNumber
      ref := optionalString revision.ref
      status
      branch := optionalString payload.branch
      changeId := optionalString payload.changeId
      subject := optionalString payload.subject
      commitMessage := optionalString revision.commitMessage
      updated := payload.updated
      revisionCreated := gerritTimestamp revision.created }

/-- `str.replace` of a single character. -/
def replaceCharacter (old : Char) (new text : String) : String :=
  String.ofList
    (text.toList.flatMap fun character =>
      if character = old then new.toList else [character])

/-- `_query_value`. -/
def queryValue (value : String) : String :=
  "\"" ++ replaceCharacter '"' "\\\"" (replaceCharacter '\\' "\\\\" value) ++ "\""

example : queryValue "a\\\"b" = "\"a\\\\\\\"b\"" := by decide

structure ChangesQuery where
  project : String
  /-- The whole seconds of the cutoff. -/
  after : Option Nat
  before : Option SearchBoundary
  /-- The excluded change numbers, in ascending order. -/
  excluded : List Int
  deriving DecidableEq, Repr

def ChangesQuery.text (query : ChangesQuery) : String :=
  let base := "status:open project:" ++ queryValue query.project
  let base :=
    match query.after with
    | none => base
    | some seconds => base ++ " after:\"" ++ datetimeText seconds ++ " +0000\""
  match query.before with
  | none => base
  | some boundary =>
      query.excluded.foldl (fun text number => text ++ " -change:" ++ toString number)
        (base ++ " before:\"" ++ boundary.text ++ "\"")

/-- What the server answers to each request: an array of mappings, or something
else in the place of one of these. -/
abbrev ChangesServer : Type :=
  Nat → ChangesQuery → Int → Except PyError (Option (List (Option ChangeInfo)))

/-- The local variables of the loop over the pages of a project. -/
structure Paging where
  changes : List OpenChange
  beforeBoundary : Option SearchBoundary := none
  excludedAtBoundary : List Int := []
  seenChangeNumbers : List Int := []
  deriving DecidableEq, Repr

/-- The `TransientError` of a query that has grown too long. -/
def queryTooLong : PyError :=
  .transient
    ("Gerrit reconciliation has too many changes sharing one update-second " ++
      "boundary to continue safely without offset pagination")

namespace Paging

def query (project : String) (after : Option Nat) (paging : Paging) :
    ChangesQuery where
  project
  after
  before := paging.beforeBoundary
  excluded := paging.excludedAtBoundary.mergeSort

def read (project : String) (paging : Paging) :
    Option ChangeInfo → Except PyError Paging
  | none =>
      .error (.transient "Gerrit Query Changes returned a malformed change")
  | some item => do
      let number ← requiredPositiveInt item.number "_number"
      let parsed ← parseChange item project number
      if paging.seenChangeNumbers.contains number then .ok paging
      else
        .ok
          { paging with
            changes := paging.changes ++ [parsed]
            seenChangeNumbers := number :: paging.seenChangeNumbers }

def exclude (boundary : SearchBoundary) (excluded : List Int) :
    Option ChangeInfo → Except PyError (List Int)
  | none => .ok excluded
  | some item =>
      match item.number with
      | none => .ok excluded
      | some number => do
          let level ← gerritSearchBoundary item.updated
          .ok (if level = some boundary then excluded.insert number else excluded)

def descend (paging : Paging) (payload : List (Option ChangeInfo))
    (oldestUpdated : TimestampField) : Except PyError Paging := do
  let some nextBoundary ← gerritSearchBoundary oldestUpdated
    | .error
        (.transient
          "Gerrit Query Changes pagination requires an updated timestamp")
  let excluded :=
    if paging.beforeBoundary ≠ some nextBoundary then []
    else paging.excludedAtBoundary
  let excluded ← payload.foldlM (exclude nextBoundary) excluded
  .ok
    { paging with
      beforeBoundary := some nextBoundary
      excludedAtBoundary := excluded }

/-- One page: the paging after it, and whether the loop goes on. -/
def turn (project : String) (paging : Paging)
    (payload : List (Option ChangeInfo)) : Except PyError (Paging × Bool) := do
  let some last := payload.getLast? | .ok (paging, false)
  let paging ← payload.foldlM (read project) paging
  match last with
  | none => .ok (paging, false)
  | some last =>
      if last.moreChanges then
        let paging ← descend paging payload last.updated
        .ok (paging, true)
      else .ok (paging, false)

end Paging

section Query

variable (server : ChangesServer) (pageSize : Int)

def requestPage (request : Nat) (query : ChangesQuery) :
    Except PyError (List (Option ChangeInfo)) := do
  let some payload ← server request query pageSize
    | .error
        (.transient
          "Gerrit Query Changes returned a non-array JSON response")
  .ok payload

/-- The loop over the pages of one project, and the number of the next request.
The fuel counts the pages. -/
def queryPages (project : String) (after : Option Nat) :
    Nat → Nat → Paging → Option (Except PyError (Paging × Nat))
  | 0, _, _ => none
  | fuel + 1, request, paging =>
      let query := paging.query project after
      if 64000 < query.text.utf8ByteSize then some (.error queryTooLong)
      else
        match requestPage server pageSize request query >>= paging.turn project with
        | .error raised => some (.error raised)
        | .ok (paging, false) => some (.ok (paging, request + 1))
        | .ok (paging, true) => queryPages project after fuel (request + 1) paging

def queryProjects (after : String → Option Nat) (fuel : Nat) :
    List String → Nat → List OpenChange → Option (Except PyError (List OpenChange))
  | [], _, changes => some (.ok changes)
  | project :: rest, request, changes =>
      match queryPages server pageSize project (after project) fuel request
          { changes } with
      | none => none
      | some (.error raised) => some (.error raised)
      | some (.ok (paging, request)) =>
          queryProjects after fuel rest request paging.changes

/-- `_latest_cutoff`. -/
def latestCutoff : Option Datetime → Option Datetime → Option Datetime
  | none, second => second
  | some first, none => some first
  | some first, some second =>
      some (if first.instant < second.instant then second else first)

def cutoffSeconds (since : Option Datetime)
    (projectSince : Option (Dict String (Option Datetime))) (project : String) :
    Option Nat :=
  let projectCutoff :=
    projectSince.bind fun cutoffs => (Dict.get? cutoffs project).join
  (latestCutoff since projectCutoff).map fun cutoff => cutoff.instant / 1000000

/-- A cutoff is absent or has a time zone. -/
def cutoffAware : Option Datetime → Bool
  | none => true
  | some cutoff => cutoff.aware

def checkCutoffs : Dict String (Option Datetime) → Except PyError Unit
  | [] => .ok ()
  | (project, cutoff) :: rest => do
      Except.require (cutoffAware cutoff)
        (.value ("project cutoff for " ++ reprString project ++ " must be timezone-aware"))
      checkCutoffs rest

/-- The checks `query_recent_open_changes` begins with. -/
def checkQuery (since : Option Datetime)
    (projectSince : Option (Dict String (Option Datetime))) :
    Except PyError Unit := do
  Except.require (cutoffAware since) (.value "since must be timezone-aware")
  checkCutoffs (projectSince.getD [])
  Except.require (1 ≤ pageSize) (.value "page_size must be positive")

/-- `GerritRestClient.query_recent_open_changes` over the allowlisted projects;
`none` when the fuel of a project runs out. -/
def queryRecentOpenChanges (projects : List String) (since : Option Datetime)
    (projectSince : Option (Dict String (Option Datetime))) (fuel : Nat) :
    Option (Except PyError (List OpenChange)) :=
  match checkQuery pageSize since projectSince with
  | .error raised => some (.error raised)
  | .ok () =>
      queryProjects server pageSize (cutoffSeconds since projectSince) fuel
        projects 0 []

end Query

end PeReview
