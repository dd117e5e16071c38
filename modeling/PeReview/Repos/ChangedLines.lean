import PeReview.Data.Decimal
import PeReview.Data.Lines
import PeReview.Domain

/-!
# The changed lines of a diff

`_parse_changed_lines` of `repos/manager.py`.
-/

namespace PeReview

def afterLiteral (literal : String) (text : List Char) : Option (List Char) :=
  if literal.toList.isPrefixOf text then some (text.drop literal.length) else none

/-- `text.startswith(literal)`. -/
def startsWith (literal : String) (text : List Char) : Bool :=
  literal.toList.isPrefixOf text

/-- `(?:,(\d+))?`. -/
def skipCount (text : List Char) : List Char :=
  match (afterLiteral "," text).bind readNumber with
  | none => text
  | some (_, rest) => rest

/-- The old and the new start line of a hunk header, as `hunk_re` matches it. -/
def matchHunk (raw : List Char) : Option (Nat × Nat) := do
  let (oldStart, rest) ← (afterLiteral "@@ -" raw).bind readNumber
  let (newStart, rest) ← (afterLiteral " +" (skipCount rest)).bind readNumber
  let _ ← afterLiteral " @@" (skipCount rest)
  return (oldStart, newStart)

/-- `ChangedLine(...)`, which checks its line number. -/
def makeChangedLine (path : List Char) (side : DiffSide) (line : Nat)
    (text : List Char) : Except PyError ChangedLine :=
  if line < 1 then
    .error
      (.value
        "line: Input should be greater than or equal to 1")
  else
    .ok { path := String.ofList path, side, line, text := String.ofList text }

/-- The local variables of `_parse_changed_lines`. -/
structure DiffState where
  oldPath : Option (List Char) := none
  newPath : Option (List Char) := none
  oldLine : Nat := 0
  newLine : Nat := 0
  result : List ChangedLine := []
  deriving DecidableEq, Repr

namespace DiffState

/-- `new_path or old_path`, when that is true. -/
def path (state : DiffState) : Option (List Char) :=
  match state.newPath with
  | some (char :: rest) => some (char :: rest)
  | _ => state.oldPath.filter fun path => path ≠ []

/-- Append a changed line, when there is a path. -/
def append (state : DiffState) (side : DiffSide) (line : Nat) (text : List Char) :
    Except PyError DiffState :=
  match state.path with
  | none => .ok state
  | some path => do
      let changed ← makeChangedLine path side line text
      .ok { state with result := state.result ++ [changed] }

def parseLine (state : DiffState) (raw : List Char) : Except PyError DiffState :=
  if startsWith "--- a/" raw then .ok { state with oldPath := some (raw.drop 6) }
  else if raw = "--- /dev/null".toList then .ok { state with oldPath := none }
  else if startsWith "+++ b/" raw then
    .ok { state with newPath := some (raw.drop 6) }
  else if raw = "+++ /dev/null".toList then .ok { state with newPath := none }
  else
    match matchHunk raw with
    | some (oldLine, newLine) => .ok { state with oldLine, newLine }
    | none =>
        if startsWith "@@" raw then .ok state
        else if startsWith "+" raw && !startsWith "+++" raw then do
          let state ← state.append .revision state.newLine (raw.drop 1)
          .ok { state with newLine := state.newLine + 1 }
        else if startsWith "-" raw && !startsWith "---" raw then do
          let state ← state.append .parent state.oldLine (raw.drop 1)
          .ok { state with oldLine := state.oldLine + 1 }
        else if startsWith " " raw then
          .ok
            { state with oldLine := state.oldLine + 1, newLine := state.newLine + 1 }
        else .ok state

end DiffState

/-- `_parse_changed_lines`. -/
def parseChangedLines (diff : List Char) : Except PyError (List ChangedLine) := do
  let state ← (splitlinesFrom [] diff).foldlM DiffState.parseLine {}
  .ok state.result

end PeReview
