import PeReview.Data.Json
import PeReview.Data.JsonValue
import PeReview.Data.Lines

/-!
# The repository tools

`RepositoryToolExecutor` of `repos/tools.py`.  The result of a call is what it reads:
the file and the lines, or the answer of git.  The text made of it, cut to the byte
limits, is left out.
-/

namespace PeReview

open PeReview.Data

structure Failure where
  kind : PyException
  text : String := ""
  deriving DecidableEq, Repr

/-- How a git command ended: its code and its output, decoded. -/
structure GitAnswer where
  returnCode : Int
  stdout : String
  stderr : String
  deriving DecidableEq, Repr

/-- `stderr[:1000]`. -/
def GitAnswer.detail (answer : GitAnswer) : String :=
  String.ofList (answer.stderr.toList.take 1000)

/-- The file system and git, as the executor uses them.  `Path.resolve` raises a
`ValueError` for a null character and a `RuntimeError` for a loop of symbolic links. -/
structure Workspace where
  root : String
  /-- `(self.root / value).resolve()`. -/
  realpath : String → Except Failure String
  isFile : String → Except Failure Bool
  git : List String → Except Failure GitAnswer
  realpath_raises : ∀ value raised, realpath value = .error raised →
    raised.kind = .valueError ∨ raised.kind = .osError ∨ raised.kind = .runtimeError
  isFile_raises : ∀ target raised, isFile target = .error raised →
    raised.kind = .osError
  git_raises : ∀ arguments raised, git arguments = .error raised →
    raised.kind = .valueError ∨ raised.kind = .osError

/-- A range of `batch_read` that is read, or why it is not. -/
inductive BatchSection
  | refused (text : String)
  | lines (path target : String) (start stop requested : Int)
  deriving DecidableEq, Repr

inductive ToolOutput
  | error (message : String)
  | notFile (path : String)
  | lines (path target : String) (start stop : Int)
  | batch (sections : List BatchSection) (remaining : Nat)
  | gitFailed (message detail : String)
  | noMatches
  /-- The lines of `git grep`, with the files around the first matches. -/
  | matches_ (rows : List String) (context : List (String × String))
  | files (rows : List String)
  deriving DecidableEq, Repr

/-- `relative.replace("\\", "/").lstrip("/")`. -/
def slashed (relative : String) : String :=
  String.ofList
    ((relative.toList.map fun char => if char = '\\' then '/' else char).dropWhile
      fun char => char = '/')

/-- `target.relative_to(self.root)` succeeds. -/
def Workspace.contains (workspace : Workspace) (target : String) : Bool :=
  let below := if workspace.root = "/" then "/" else workspace.root ++ "/"
  target = workspace.root || below.toList.isPrefixOf target.toList

/-- `_resolve`. -/
def Workspace.resolve (workspace : Workspace) (relative : String) :
    Except Failure String := do
  let target ← workspace.realpath (slashed relative)
  if workspace.contains target then .ok target
  else
    .error
      { kind := .valueError
        text := "repository path escapes workspace: " ++ reprString relative }

/-- The failure of an `int` that is not caught. -/
def overflow : Failure :=
  { kind := .overflowError, text := "cannot convert float infinity to integer" }

/-- The clamp of `_bounded_int`. -/
def clamp (low : Int) (high : Option Int) (parsed : Int) : Int :=
  match high with
  | none => max low parsed
  | some high => min (max low parsed) high

/-- `_bounded_int`. -/
def boundedInt (value : Json) (default low : Int) (high : Option Int := none) :
    Except Failure Int :=
  match value.toInt with
  | .ok parsed => .ok (clamp low high parsed)
  | .error .overflowError => .error overflow
  | .error _ => .ok default

/-- `_positive_int`. -/
def positiveInt (value : Json) : Option Int :=
  value.exactInt.filter fun number => decide (1 ≤ number)

/-- `isinstance(value, str) and value`. -/
def nonEmptyText (value : Json) : Option String :=
  value.text.filter fun text => text ≠ ""

/-- `read_file`. -/
def readFile (workspace : Workspace) (path : String) (startLine : Int)
    (endLine : Option Int) : Except Failure ToolOutput := do
  let target ← workspace.resolve path
  let file ← workspace.isFile target
  if !file then .ok (.notFile path)
  else
    let start := max 1 startLine
    .ok (.lines path target start (endLine.getD (start + 199)))

/-- `_BATCH_READ_MAX_RANGES`. -/
def batchReadMaxRanges : Nat := 6

/-- `_BATCH_READ_MAX_LINES`. -/
def batchReadMaxLines : Int := 200

/-- One range of `batch_read`. -/
def batchRange (workspace : Workspace) (index : Nat) (item : Json) :
    Except Failure BatchSection :=
  let refused (text : String) : Except Failure BatchSection :=
    .ok (.refused ("[" ++ toString index ++ "]" ++ text))
  match item.fields? with
  | none => refused " ERROR: range must be an object"
  | some range =>
      match nonEmptyText (Json.field range "path") with
      | none => refused " ERROR: range requires non-empty string path"
      | some path =>
          match positiveInt (Json.field range "start_line"),
            positiveInt (Json.field range "end_line") with
          | some start, some requested =>
              let place (stop : Int) : String :=
                " " ++ path ++ ":" ++ toString start ++ "-" ++ toString stop
              if requested < start then
                refused (place requested ++ " ERROR: end_line must be >= start_line")
              else
                let stop := min requested (start + batchReadMaxLines - 1)
                match workspace.resolve path with
                | .error raised =>
                    if raised.kind = .valueError then
                      refused (place stop ++ " ERROR: " ++ raised.text)
                    else .error raised
                | .ok target => do
                    let file ← workspace.isFile target
                    if !file then refused (place stop ++ " ERROR: file not found")
                    else .ok (.lines path target start stop requested)
          | _, _ =>
              refused
                (" " ++ path ++ " ERROR: start_line and end_line must be positive integers")

/-- `batch_read`. -/
def batchRead (workspace : Workspace) (ranges : List Json) :
    Except Failure ToolOutput := do
  let selected := ranges.take batchReadMaxRanges
  let sections ←
    (selected.zipIdx 1).mapM fun entry => batchRange workspace entry.2 entry.1
  .ok (.batch sections (ranges.length - selected.length))

/-- The line `_communicate` ends a cut output with. -/
def outputMarker : String :=
  "<tool output truncated by byte limit>"

/-- A match of `git grep`; its line number is from one on. -/
structure SearchMatch where
  path : String
  line : Nat
  content : String
  positive : 1 ≤ line
  deriving DecidableEq, Repr

theorem one_le_toNat {number : Int} (positive : 1 ≤ number) : 1 ≤ number.toNat := by
  omega

/-- `_parse_grep_match`. -/
def parseGrepMatch (value : String) : Option SearchMatch :=
  let (path, rest) := value.toList.span fun char => char ≠ ':'
  match rest with
  | [] => none
  | _ :: rest =>
      let (number, rest) := rest.span fun char => char ≠ ':'
      match rest, intOfText (String.ofList number) with
      | _ :: content, some number =>
          if positive : 1 ≤ number ∧ path ≠ [] then
            some
              { path := String.ofList path, line := number.toNat
                content := String.ofList content
                positive := one_le_toNat positive.1 }
          else none
      | _, _ => none

/-- A file around a match: one that is refused or is no file is passed by. -/
def contextFile (workspace : Workspace) (path : String) :
    Except Failure (Option (String × String)) :=
  match workspace.resolve path with
  | .error raised =>
      if raised.kind = .valueError then .ok none else .error raised
  | .ok target => do
      let file ← workspace.isFile target
      .ok (if file then some (path, target) else none)

/-- `_SEARCH_CONTEXT_MATCH_LIMIT`. -/
def searchContextMatchLimit : Nat := 6

/-- The paths of the first matches, each once. -/
def contextPaths (rows : List String) : List String :=
  ((rows.take searchContextMatchLimit).filterMap fun row =>
    (parseGrepMatch row).map SearchMatch.path).eraseDups

/-- `raw_lines`. -/
def grepRows (answer : GitAnswer) (maxResults : Int) : List String :=
  ((splitlines answer.stdout).filter fun line => line ≠ outputMarker).take
    maxResults.toNat

/-- `search_text`, from the output of git on. -/
def searchMatches (workspace : Workspace) (answer : GitAnswer) (maxResults : Int) :
    Except Failure ToolOutput :=
  if answer.returnCode ≠ 0 ∧ answer.returnCode ≠ 1 then
    .ok (.gitFailed "git grep failed" answer.detail)
  else
    let rows := grepRows answer maxResults
    if rows = [] then .ok .noMatches
    else do
      let context ← (contextPaths rows).mapM (contextFile workspace)
      .ok (.matches_ rows (context.filterMap id))

/-- `if path: self._resolve(path)`, with the pathspec of the command. -/
def checkedPathspec (workspace : Workspace) (path : Option String) :
    Except Failure (List String) :=
  match path.filter fun path => path ≠ "" with
  | none => .ok []
  | some path => do
      let _ ← workspace.resolve path
      .ok ["--", path]

/-- `args` of `search_text`. -/
def grepCommand (workspace : Workspace) (query : String) (pathspec : List String) :
    List String :=
  ["git", "-C", workspace.root, "grep", "-n", "-F", "--full-name", "-e", query] ++
    pathspec

/-- `search_text`. -/
def searchText (workspace : Workspace) (query : String) (path : Option String)
    (maxResults : Int) : Except Failure ToolOutput := do
  let pathspec ← checkedPathspec workspace path
  let answer ← workspace.git (grepCommand workspace query pathspec)
  searchMatches workspace answer maxResults

/-- `list_files`. -/
def listFiles (workspace : Workspace) (path : Option String) :
    Except Failure ToolOutput := do
  let pathspec ← checkedPathspec workspace path
  let answer ←
    workspace.git (["git", "-C", workspace.root, "ls-files"] ++ pathspec)
  if answer.returnCode ≠ 0 then
    .ok (.gitFailed "git ls-files failed" answer.detail)
  else
    .ok
      (.files
        (((splitlines answer.stdout).filter fun line => line ≠ outputMarker).take 500))

/-- `end_line` of `read_file`, once the path is checked. -/
def readEndLine (value : Json) : Except Failure (Except String (Option Int)) :=
  match value with
  | .null => .ok (.ok none)
  | value =>
      match value.toInt with
      | .error .overflowError => .error overflow
      | .error _ => .ok (.error "read_file end_line must be an integer")
      | .ok stop =>
          if stop < 1 then .ok (.error "read_file end_line must be positive")
          else .ok (.ok (some stop))

/-- `path is not None and not isinstance(path, str)` refuses a path. -/
def optionalPath : Json → Option (Option String)
  | .null => some none
  | .string text => some (some text)
  | _ => none

/-- `execute`. -/
def execute (workspace : Workspace) (name : String) (arguments : Dict String Json) :
    Except Failure ToolOutput :=
  if name = "read_file" then
    match nonEmptyText (Json.field arguments "path") with
    | none => .ok (.error "read_file requires non-empty string path")
    | some path => do
        match ← readEndLine (Json.field arguments "end_line") with
        | .error message => .ok (.error message)
        | .ok stop => do
            let start ← boundedInt (Json.fieldOr arguments "start_line" (.int 1)) 1 1
            readFile workspace path start stop
  else if name = "batch_read" then
    match Json.field arguments "ranges" with
    | .array (range :: ranges) => batchRead workspace (range :: ranges)
    | _ => .ok (.error "batch_read requires a non-empty ranges array")
  else if name = "search_text" then
    match nonEmptyText (Json.field arguments "query") with
    | none => .ok (.error "search_text requires non-empty string query")
    | some query =>
        match optionalPath (Json.field arguments "path") with
        | none => .ok (.error "search_text path must be a string")
        | some path => do
            let maxResults ←
              boundedInt (Json.fieldOr arguments "max_results" (.int 40)) 40 1
                (some 100)
            searchText workspace query path maxResults
  else if name = "list_files" then
    match optionalPath (Json.field arguments "path") with
    | none => .ok (.error "list_files path must be a string")
    | some path => listFiles workspace path
  else .ok (.error ("unknown repository tool: " ++ name))

end PeReview
