import PeReview.Data.JsonValue
import PeReview.Data.Words
import PeReview.Retry

/-!
# The messages of a change

`has_published_review` of `gerrit/client.py`, from the answer of the server on: a review
is found by its text, without the white space and the decorations Gerrit adds.
-/

namespace PeReview

open PeReview.Data

/-- The characters of `\w`: of the ASCII characters the letters, the digits and the
underscore. -/
structure WordClass where
  isWord : Char → Bool
  ascii : ∀ char : Char, char.toNat < 128 → isWord char = (char.isAlphanum || char = '_')

/-- A lower-case letter of a pattern under `re.IGNORECASE`; the long s folds to an s. -/
def foldsTo (letter char : Char) : Bool :=
  char.toLower = letter || letter = 's' && char = '\u017f'

def afterLetters : List Char → List Char → Option (List Char)
  | [], text => some text
  | _ :: _, [] => none
  | letter :: letters, char :: rest =>
      if foldsTo letter char then afterLetters letters rest else none

/-- `\s+`. -/
def afterSpaces : List Char → Option (List Char)
  | [] => none
  | char :: rest => if isPythonSpace char then some (lstrip rest) else none

def afterChar (expected : Char) : List Char → Option (List Char)
  | [] => none
  | char :: rest => if char = expected then some rest else none

/-- The text `_PATCH_SET_PREFIX` leaves. -/
def afterPatchSet (text : List Char) : Option (List Char) := do
  let rest ← afterLetters ['p', 'a', 't', 'c', 'h'] (lstrip text)
  let rest ← afterSpaces rest
  let rest ← afterLetters ['s', 'e', 't'] rest
  let rest ← afterSpaces rest
  let (_, rest) ← readNumber rest
  let rest ← afterChar ':' (lstrip rest)
  some (lstrip rest)

/-- `comments?\)`. -/
def afterComments (text : List Char) : Option (List Char) := do
  let rest ← afterLetters ['c', 'o', 'm', 'm', 'e', 'n', 't'] text
  match (afterLetters ['s'] rest).bind (afterChar ')') with
  | some rest => some rest
  | none => afterChar ')' rest

/-- `[^\n]*\bcomments?\)` below a character: the last place on the line is taken. -/
def lastComments (word : WordClass) : Char → List Char → Option (List Char)
  | _, [] => none
  | before, char :: rest =>
      if char = '\n' then none
      else
        match lastComments word char rest with
        | some found => some found
        | none =>
            if word.isWord before ≠ word.isWord char then afterComments (char :: rest)
            else none

/-- `[A-Za-z]` under `re.IGNORECASE`. -/
def isPatternLetter (char : Char) : Bool :=
  char.isAlpha || ['\u0130', '\u0131', '\u017f', '\u212a'].contains char

/-- `[+-]?`. -/
def skipSign : List Char → List Char
  | '+' :: rest | '-' :: rest => rest
  | text => text

/-- `(?:,\s*)?`. -/
def skipComma : List Char → List Char
  | ',' :: rest => lstrip rest
  | text => text

/-- One round of `[A-Za-z][^:\n]*:\s*[+-]?\d+(?:,\s*)?`. -/
def afterVote : List Char → Option (List Char)
  | [] => none
  | char :: rest =>
      if isPatternLetter char then do
        let rest ← afterChar ':' (rest.dropWhile fun char => char ≠ ':' && char ≠ '\n')
        let (_, rest) ← readNumber (skipSign (lstrip rest))
        some (skipComma rest)
      else none

def afterVotes : Nat → List Char → List Char
  | 0, text => text
  | rounds + 1, text =>
      match afterVote text with
      | none => text
      | some rest => afterVotes rounds rest

/-- The text `_REVIEW_DECORATION_PREFIX` leaves. -/
def afterDecoration (word : WordClass) (text : List Char) : Option (List Char) :=
  match afterChar '(' text with
  | some rest => (lastComments word '(' rest).map lstrip
  | none => (afterVote text).map fun rest => lstrip (afterVotes rest.length rest)

/-- The loop of `_normalize_review_message`: a decoration has a character, so there are
no more of them than characters. -/
def stripDecorations (word : WordClass) : Nat → List Char → List Char
  | 0, text => text
  | rounds + 1, text =>
      match afterDecoration word text with
      | none => text
      | some rest => stripDecorations word rounds (lstrip rest)

/-- The words `_normalize_review_message` joins. -/
def normalizedWords (word : WordClass) (value : List Char) : List (List Char) :=
  let normalized := lstrip ((afterPatchSet value).getD value)
  words (stripDecorations word normalized.length normalized)

/-- `_normalize_review_message`. -/
def normalizeReviewMessage (word : WordClass) (value : String) : String :=
  String.intercalate " " ((normalizedWords word value.toList).map String.ofList)

/-- How the lookup ends without an answer: `overflow` is the failure of `int`. -/
inductive LookupError
  | raised (error : PyError)
  | overflow
  deriving DecidableEq, Repr

/-- `_message_revision_number`. -/
def messageRevisionNumber (message : Dict String Json) :
    Except LookupError (Option Int) :=
  match (Json.field message "_revision_number").toInt with
  | .ok number => .ok (if 0 < number then some number else none)
  | .error .overflowError => .error .overflow
  | .error _ => .ok none

structure ExpectedMessage where
  tag : String
  patchsetNumber : Int
  message : String
  deriving DecidableEq, Repr

def ExpectedMessage.matches_ (word : WordClass) (expected : ExpectedMessage)
    (item : Json) : Except LookupError Bool :=
  match item.fields? with
  | none =>
      .error (.raised (.transient "Gerrit List Change Messages returned a malformed message"))
  | some message =>
      if (Json.field message "tag").text ≠ some expected.tag then .ok false
      else
        match messageRevisionNumber message with
        | .error error => .error error
        | .ok number =>
            if number ≠ some expected.patchsetNumber then .ok false
            else
              .ok <| ((Json.field message "message").text.map
                (normalizeReviewMessage word)) = some expected.message

def ExpectedMessage.isIn (word : WordClass) (expected : ExpectedMessage) :
    List Json → Except LookupError Bool
  | [] => .ok false
  | item :: rest =>
      match expected.matches_ word item with
      | .error error => .error error
      | .ok true => .ok true
      | .ok false => expected.isIn word rest

structure MessageSettings where
  allowlist : List String
  reviewTag : String
  deriving DecidableEq, Repr

/-- `has_published_review`, when the server answers with this payload. -/
def hasPublishedReviewIn (word : WordClass) (settings : MessageSettings)
    (project : String) (patchsetNumber : Int) (summary : String) (tag : Option String)
    (payload : Json) : Except LookupError Bool :=
  if !settings.allowlist.contains project then
    .error (.raised (.permanent ("Gerrit project is not allowlisted: " ++ project)))
  else if patchsetNumber < 1 then
    .error (.raised (.value "patchset_number must be positive"))
  else
    let message := normalizeReviewMessage word summary
    if message = "" then .ok false
    else
      match payload with
      | .array items =>
          let tag := (tag.filter fun tag => tag ≠ "").getD settings.reviewTag
          ExpectedMessage.isIn word { tag, patchsetNumber, message } items
      | _ =>
          .error (.raised
            (.transient "Gerrit List Change Messages returned a non-array JSON response"))

end PeReview
