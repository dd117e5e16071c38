import PeReview.Data.Except
import PeReview.Gerrit.Query

/-!
# The patch-set events of Gerrit

The two channels that discover patch sets: a record of the event stream
(`parse_patchset_created`), which is dated in whole seconds, and the changes of a
reconciliation pass (`reconciliation_events`), which carry the time their current
revision was created at.
-/

namespace PeReview

open PeReview.Data

/-- An account in a payload.  A field with a value of another type is `none`. -/
structure AccountInfo where
  username : Option String := none
  email : Option String := none
  name : Option String := none
  deriving DecidableEq, Repr

/-- `_account_name`. -/
def accountName (account : Option AccountInfo) : Option String :=
  account.bind fun account =>
    (optionalString account.username).or
      ((optionalString account.email).or (optionalString account.name))

/-- The `change` of a stream record. -/
structure StreamChange where
  project : Option String
  number : Option Int
  branch : Option String := none
  id : Option String := none
  deriving DecidableEq, Repr

/-- The `patchSet` of a stream record. -/
structure StreamPatchSet where
  number : Option Int
  revision : Option String
  ref : Option String := none
  uploader : Option AccountInfo := none
  deriving DecidableEq, Repr

/-- The fields of a stream record the receiver reads.  A field with a value of
another type is `none`. -/
structure StreamRecord where
  type : Option String
  change : Option StreamChange := none
  patchSet : Option StreamPatchSet := none
  uploader : Option AccountInfo := none
  eventCreatedOn : Option Int := none
  deriving DecidableEq, Repr

/-- `_event_created_at`. -/
def eventCreatedAt (value : Option Int) : Option Time :=
  match value with
  | none => none
  | some timestamp =>
      if timestamp < 0 then none
      else if unixEnd ≤ timestamp.toNat then none
      else some ((unixEpoch + timestamp.toNat) * 1000000)

/-- `_string` of a stream record. -/
def streamString (value : Option String) (key : String) : Except PyError String :=
  match optionalString value with
  | none =>
      .error
        (.value ("Gerrit stream event is missing string field '" ++ key ++ "'"))
  | some text => .ok text

/-- `_positive_int` of a stream record. -/
def streamPositiveInt (value : Option Int) (key : String) : Except PyError Int :=
  match value with
  | none =>
      .error
        (.value ("Gerrit stream event has invalid integer field '" ++ key ++ "'"))
  | some parsed =>
      if parsed < 1 then
        .error
          (.value
            ("Gerrit stream event has non-positive integer field '" ++ key ++ "'"))
      else .ok parsed

/-- `_mapping` of a stream record. -/
def streamMapping {Mapping : Type} (value : Option Mapping) (key : String) :
    Except PyError Mapping :=
  match value with
  | none =>
      .error
        (.value ("Gerrit stream event is missing object field '" ++ key ++ "'"))
  | some mapping => .ok mapping

/-- `GerritPatchsetEvent.model_validate`: the length of a revision is bounded. -/
def GerritPatchsetEvent.modelValidate (event : GerritPatchsetEvent) :
    Except PyError GerritPatchsetEvent := do
  Except.require (7 ≤ event.revisionSha.length && event.revisionSha.length ≤ 64)
    (.value "revision_sha: String should have 7 to 64 characters")
  .ok event

/-- `parse_patchset_created` of a record that is a JSON object. -/
def parsePatchsetCreated (record : StreamRecord)
    (allowlist : Option (List String)) :
    Except PyError (Option GerritPatchsetEvent) :=
  if record.type ≠ some "patchset-created" then .ok none
  else do
    let change ← streamMapping record.change "change"
    let patchset ← streamMapping record.patchSet "patchSet"
    let project ← streamString change.project "project"
    if allowlist.any fun projects => !projects.contains project then .ok none
    else do
      let uploader := record.uploader.or patchset.uploader
      let changeNumber ← streamPositiveInt change.number "number"
      let patchsetNumber ← streamPositiveInt patchset.number "number"
      let revisionSha ← streamString patchset.revision "revision"
      let event ←
        GerritPatchsetEvent.modelValidate
          { project
            changeNumber
            patchsetNumber
            revisionSha
            ref := optionalString patchset.ref
            branch := optionalString change.branch
            changeId := optionalString change.id
            uploader := accountName uploader
            occurredAt := eventCreatedAt record.eventCreatedOn }
      .ok (some event)

/-- The event of one change.  The uploader is read from the raw change. -/
def reconciliationEvent (uploader : OpenChange → Option AccountInfo)
    (change : OpenChange) : GerritPatchsetEvent where
  project := change.project
  changeNumber := change.changeNumber
  patchsetNumber := change.patchsetNumber
  revisionSha := change.currentRevision
  ref := change.ref
  branch := change.branch
  changeId := change.changeId
  uploader := accountName (uploader change)
  occurredAt := change.revisionCreated

/-- The current revision of a change is new work for its project. -/
def isNewWork (projectSince : Option (Dict String (Option Datetime)))
    (change : OpenChange) : Bool :=
  match projectSince.bind fun cutoffs => (Dict.get? cutoffs change.project).join with
  | none => true
  | some cutoff =>
      match change.revisionCreated with
      | none => false
      | some created => cutoff.instant ≤ created

/-- The events `reconciliation_events` makes of the changes of its query. -/
def eventsOfChanges (uploader : OpenChange → Option AccountInfo)
    (projectSince : Option (Dict String (Option Datetime)))
    (changes : List OpenChange) : List GerritPatchsetEvent :=
  (changes.filter (isNewWork projectSince)).map (reconciliationEvent uploader)

end PeReview
