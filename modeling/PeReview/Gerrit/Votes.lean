import PeReview.Data.JoinedWords
import PeReview.Data.JsonValue
import PeReview.Retry
import PeReview.Service.Calls

/-!
# The vote of the bot on a change

`parse_vote_observation` of `gerrit/votes.py`, from the decoded answers of the server on.
-/

namespace PeReview

open PeReview.Data

/-- `value == number`, of a decoded value and an `int`: a `bool` is the number it stands for,
and a `float` is compared exactly. -/
def Data.Json.equalsInt (number : Int) : Json → Bool
  | .int value => value = number
  | .bool value => (if value then 1 else 0) = number
  | .float (.finite value) => value = number
  | _ => false

/-- `str(value).strip().lstrip("+") == str(number)`; the text of a `bool`, of a `float` or of
anything else is never the one of an `int`. -/
def Data.Json.permits (number : Int) : Json → Bool
  | .string text => (pyStrip text).toList.dropWhile (· = '+') = (toString number).toList
  | .int value => value = number
  | _ => false

/-- One of the approvals of a label, in the loop for the current value. -/
def readApproval (accountId : Int) (value : Int) (approval : Json) : Except PyError Int :=
  match approval.fields? with
  | none => .error (.transient "Gerrit returned an invalid approval")
  | some fields =>
      if Json.equalsInt accountId (Json.field fields "_account_id") then
        match (Json.fieldOr fields "value" (.int 0)).exactInt with
        | none => .error (.transient "Gerrit approval value is not an integer")
        | some value => .ok value
      else .ok value

def currentVote (accountId : Int) (label : Option (Dict String Json)) : Except PyError Int :=
  match label with
  | none => .ok 0
  | some label =>
      match Json.fieldOr label "all" (.array []) with
      | .array approvals => approvals.foldlM (readApproval accountId) 0
      | _ => .error (.transient "Gerrit label approvals have an invalid shape")

/-- `detail["labels"].get("Code-Review")`. -/
def codeReviewLabel (detail : Dict String Json) : Except PyError (Option (Dict String Json)) :=
  match (Json.field detail "labels").fields? with
  | none => .error (.transient "Gerrit review response lacks label details")
  | some labels =>
      match Json.field labels "Code-Review" with
      | .null => .ok none
      | .object label => .ok (some label)
      | _ => .error (.transient "Gerrit Code-Review label has an invalid shape")

def permittedVotes (detail : Dict String Json) : Except PyError (List Json) :=
  match (Json.fieldOr detail "permitted_labels" (.object [])).fields? with
  | none => .error (.transient "Gerrit permitted_labels has an invalid shape")
  | some permitted =>
      match Json.fieldOr permitted "Code-Review" (.array []) with
      | .array allowed => .ok allowed
      | _ => .error (.transient "Gerrit Code-Review permission range is invalid")

structure VoteMarker where
  accountId : Int
  patchsetNumber : Int
  tag : String
  marker : String
  deriving DecidableEq, Repr

/-- The message is one of the bot on the patch set, with the tag. -/
def VoteMarker.concerns (wanted : VoteMarker) (message : Dict String Json) : Bool :=
  ((Json.field message "author").fields?.any fun author =>
      Json.equalsInt wanted.accountId (Json.field author "_account_id")) &&
    Json.equalsInt wanted.patchsetNumber (Json.field message "_revision_number") &&
    (Json.field message "tag").text = some wanted.tag

/-- A message ends with the marker, up to its white space. -/
def VoteMarker.ends (wanted : VoteMarker) (message : Dict String Json) : Bool :=
  (Json.field message "message").text.any fun text =>
    (joinWords wanted.marker.toList).isSuffixOf (joinWords text.toList)

def VoteMarker.isIn (wanted : VoteMarker) : List Json → Except PyError Bool
  | [] => .ok false
  | item :: rest =>
      match item.fields? with
      | none => .error (.transient "Gerrit returned an invalid change message")
      | some message => do
          let later ← wanted.isIn rest
          .ok (wanted.concerns message && wanted.ends message || later)

/-- `parse_vote_observation`. -/
def parseVoteObservation (detail : Dict String Json) (messages : List Json)
    (wanted : VoteMarker) (target : Int) : Except PyError VoteObservation := do
  let label ← codeReviewLabel detail
  let currentValue ← currentVote wanted.accountId label
  let allowed ← permittedVotes detail
  let changeStatus := (Json.field detail "status").text.getD "NEW"
  let markerFound ← wanted.isIn messages
  .ok
    { currentValue
      canVote :=
        changeStatus = "NEW" && label.isSome &&
          (target = 0 || allowed.any (Json.permits target))
      markerFound
      labelExists := label.isSome
      changeStatus }

end PeReview
