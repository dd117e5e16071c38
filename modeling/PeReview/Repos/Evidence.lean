import PeReview.Repos.ToolFailures

/-!
# What a call reads

The evidence a tool call gives, without the spelling of its path and the texts of its
errors.
-/

namespace PeReview

open PeReview.Data

/-- What a call reads of the repository. -/
inductive Evidence
  | lines (target : String) (start stop : Int)
  | ranges (sections : List (Option (String × Int × Int)))
  | rows (rows : List String) (context : List (String × String))
  | files (rows : List String)
  deriving DecidableEq, Repr

/-- What is read of a range that is not refused. -/
def BatchSection.lines? : BatchSection → Option (String × Int × Int)
  | refused _ => none
  | lines _ target start stop _ => some (target, start, stop)

/-- What is read, where the call does not fail. -/
def ToolOutput.evidence : ToolOutput → Option Evidence
  | error _ | notFile _ | gitFailed _ _ => none
  | lines _ target start stop => some (.lines target start stop)
  | batch sections _ => some (.ranges (sections.map BatchSection.lines?))
  | noMatches => some (.rows [] [])
  | matches_ rows context => some (.rows rows context)
  | files rows => some (.files rows)

/-- The evidence of a call; one that raises gives none. -/
def evidence : Except Failure ToolOutput → Option Evidence
  | .ok output => output.evidence
  | .error _ => none

/-- The components `pathlib` has of a path below the root. -/
def components (value : String) : List String :=
  ((value.toList.splitOn '/').map String.ofList).filter fun part => part ≠ "" ∧ part ≠ "."

def pathParts (path : String) : List String :=
  components (slashed path)

/-- A repository in a tree of files: a path is looked up by its components, and the root is
a directory.  A path that ends in `..` may well be a file, as `resolve` does not ask whether
what is before the `..` exists. -/
structure Workspace.IsTree (workspace : Workspace) : Prop where
  spelled : ∀ first second, pathParts first = pathParts second →
    workspace.realpath (slashed first) = workspace.realpath (slashed second)
  root : ∀ path, pathParts path = [] →
    workspace.realpath (slashed path) = .ok workspace.root
  directory : workspace.isFile workspace.root = .ok false

/-- A path names something below the root. -/
def placeOf (path : String) : Option (List String) :=
  (some (pathParts path)).filter fun parts => parts ≠ []

theorem pathParts_of_placeOf {path : String} {parts : List String}
    (placed : placeOf path = some parts) : pathParts path = parts := by
  unfold placeOf at placed
  exact Option.some.inj (Option.filter_eq_some_iff.mp placed).1

theorem placeOf_eq_none {path : String} : placeOf path = none ↔ pathParts path = [] := by
  unfold placeOf
  rw [Option.filter_eq_none_iff]
  simp

theorem pathParts_eq {path other : String} {parts : List String}
    (placed : placeOf path = some parts) (otherPlaced : placeOf other = some parts) :
    pathParts path = pathParts other := by
  rw [pathParts_of_placeOf placed, pathParts_of_placeOf otherPlaced]

/-- What a range asks for, if it is not refused as it stands. -/
def requestedRange (item : Json) : Option (String × Int × Int) :=
  match item.fields? with
  | none => none
  | some range =>
      match nonEmptyText (Json.field range "path"),
        positiveInt (Json.field range "start_line"),
        positiveInt (Json.field range "end_line") with
      | some path, some start, some requested =>
          if requested < start then none
          else some (path, start, min requested (start + batchReadMaxLines - 1))
      | _, _, _ => none

/-- The place in the tree a range of `batch_read` asks for. -/
def rangePlace (item : Json) : Option (List String) :=
  (requestedRange item).bind fun range => placeOf range.1

/-- The place in the tree a `read_file` asks for, if it is not refused as it stands. -/
def readPlace (arguments : Dict String Json) : Option (List String) :=
  match readEndLine (Json.field arguments "end_line") with
  | .ok (.ok _) => (nonEmptyText (Json.field arguments "path")).bind placeOf
  | _ => none

/-- The pathspec git is called with, if the path is not refused as it stands. -/
def pathspecOf (path : Json) : Option (Option String) :=
  (optionalPath path).map fun path => path.filter fun path => path ≠ ""

namespace Workspace

variable (workspace : Workspace)

/-- The file at a path below the root; a `ValueError` refuses the path. -/
def look (path : String) : Except Failure (Option String) :=
  match workspace.resolve path with
  | .error raised => if raised.kind = .valueError then .ok none else .error raised
  | .ok target => do
      let file ← workspace.isFile target
      .ok (if file then some target else none)

variable {workspace} {first second path : String}

theorem resolve_eq (same : workspace.realpath (slashed first) =
    workspace.realpath (slashed second)) :
    (∃ target, workspace.resolve first = .ok target ∧
        workspace.resolve second = .ok target) ∨
      ∃ raised other, workspace.resolve first = .error raised ∧
        workspace.resolve second = .error other ∧ raised.kind = other.kind ∧
        (raised.kind ≠ .valueError → raised = other) := by
  unfold resolve
  rw [same]
  cases workspace.realpath (slashed second) with
  | error raised => exact Or.inr ⟨raised, raised, rfl, rfl, rfl, fun _ => rfl⟩
  | ok target =>
      rw [Except.ok_bind, Except.ok_bind]
      by_cases inside : workspace.contains target = true
      · rw [if_pos inside, if_pos inside]
        exact Or.inl ⟨target, rfl, rfl⟩
      · rw [if_neg inside, if_neg inside]
        exact Or.inr ⟨_, _, rfl, rfl, rfl, fun other => absurd rfl other⟩

/-- One spelling of a place finds what another one finds. -/
theorem look_eq (tree : workspace.IsTree) (spelled : pathParts first = pathParts second) :
    workspace.look first = workspace.look second := by
  unfold look
  rcases resolve_eq (tree.spelled first second spelled) with
    ⟨target, one, other⟩ | ⟨raised, failure, one, other, kind, same⟩
  · rw [one, other]
  · rw [one, other]
    dsimp only
    by_cases refused : raised.kind = .valueError
    · rw [if_pos refused, if_pos (kind ▸ refused)]
    · rw [if_neg refused, if_neg (kind ▸ refused), same refused]

theorem contains_root : workspace.contains workspace.root = true := by
  unfold contains
  simp

/-- There is no file at the root. -/
theorem look_root (tree : workspace.IsTree) (root : pathParts path = []) :
    workspace.look path = .ok none := by
  unfold look resolve
  rw [tree.root path root, Except.ok_bind, if_pos contains_root]
  dsimp only
  rw [tree.directory]
  rfl

end Workspace

section Calls

variable {workspace : Workspace} {arguments : Dict String Json} {item : Json}
  {path query : String} {start : Int} {stop : Option Int} {first second : Option String}

/-- What is read at a path once it is looked at. -/
def linesAt (found : Except Failure (Option String)) (start stop : Int) : Option Evidence :=
  match found with
  | .ok (some target) => some (.lines target start stop)
  | _ => none

theorem evidence_readFile :
    evidence (readFile workspace path start stop) =
      linesAt (workspace.look path) (max 1 start) (stop.getD (max 1 start + 199)) := by
  unfold readFile Workspace.look
  cases workspace.resolve path with
  | error raised =>
      rw [Except.error_bind]
      dsimp only
      split <;> rfl
  | ok target =>
      rw [Except.ok_bind]
      dsimp only
      cases workspace.isFile target with
      | error raised => rfl
      | ok file => cases file <;> rfl

theorem evidence_read_file :
    evidence (execute workspace "read_file" arguments) =
      match nonEmptyText (Json.field arguments "path"),
        readEndLine (Json.field arguments "end_line"),
        boundedInt (Json.fieldOr arguments "start_line" (.int 1)) 1 1 with
      | some path, .ok (.ok stop), .ok start =>
          linesAt (workspace.look path) (max 1 start) (stop.getD (max 1 start + 199))
      | _, _, _ => none := by
  unfold execute
  rw [if_pos rfl]
  cases nonEmptyText (Json.field arguments "path") with
  | none => rfl
  | some path =>
      dsimp only
      cases readEndLine (Json.field arguments "end_line") with
      | error raised => rfl
      | ok accepted =>
          cases accepted with
          | error message => rfl
          | ok stop =>
              cases boundedInt (Json.fieldOr arguments "start_line" (.int 1)) 1 1 with
              | error raised => rfl
              | ok start => exact evidence_readFile

/-- The lines a range of `batch_read` gives. -/
def requestedLines (workspace : Workspace) (item : Json) :
    Except Failure (Option (String × Int × Int)) :=
  match requestedRange item with
  | none => .ok none
  | some (path, start, stop) =>
      (workspace.look path).map fun target => target.map fun target => (target, start, stop)

theorem lines?_batchRange (index : Nat) :
    (batchRange workspace index item).map BatchSection.lines? =
      requestedLines workspace item := by
  unfold batchRange requestedLines requestedRange
  cases item.fields? with
  | none => rfl
  | some range =>
      dsimp only
      cases nonEmptyText (Json.field range "path") with
      | none => rfl
      | some path =>
          dsimp only
          cases positiveInt (Json.field range "start_line") with
          | none => rfl
          | some start =>
              cases positiveInt (Json.field range "end_line") with
              | none => rfl
              | some requested =>
                  dsimp only
                  by_cases backwards : requested < start
                  · rw [if_pos backwards, if_pos backwards]
                    rfl
                  · rw [if_neg backwards, if_neg backwards]
                    unfold Workspace.look
                    dsimp only
                    cases workspace.resolve path with
                    | error raised =>
                        dsimp only
                        split <;> rfl
                    | ok target =>
                        dsimp only
                        cases workspace.isFile target with
                        | error raised => rfl
                        | ok file => cases file <;> rfl

theorem lines?_batchRanges {ranges : List Json} {index : Nat} :
    ((ranges.zipIdx index).mapM fun entry => batchRange workspace entry.2 entry.1).map
        (List.map BatchSection.lines?) =
      ranges.mapM (requestedLines workspace) := by
  induction ranges generalizing index with
  | nil =>
      rfl
  | cons item rest inductionHypothesis =>
      have one := @lines?_batchRange workspace item index
      have others := @inductionHypothesis (index + 1)
      rw [List.zipIdx_cons, List.mapM_cons, List.mapM_cons, ← one, ← others]
      cases batchRange workspace index item with
      | error raised => rfl
      | ok section_ =>
          rw [Except.ok_bind]
          cases (rest.zipIdx (index + 1)).mapM
            fun entry => batchRange workspace entry.2 entry.1 with
          | error raised => rfl
          | ok sections => rfl

def rangesAt (found : Except Failure (List (Option (String × Int × Int)))) :
    Option Evidence :=
  match found with
  | .ok sections => some (.ranges sections)
  | .error _ => none

theorem evidence_batchRead {ranges : List Json} :
    evidence (batchRead workspace ranges) =
      rangesAt ((ranges.take batchReadMaxRanges).mapM (requestedLines workspace)) := by
  rw [← @lines?_batchRanges workspace (ranges.take batchReadMaxRanges) 1]
  unfold batchRead
  dsimp only
  cases ((ranges.take batchReadMaxRanges).zipIdx 1).mapM
    fun entry => batchRange workspace entry.2 entry.1 with
  | error raised => rfl
  | ok sections => rfl

/-- The pathspec of a call, once its path is looked at. -/
theorem checkedPathspec_congr
    (same : (first.filter fun path => path ≠ "") = second.filter fun path => path ≠ "") :
    checkedPathspec workspace first = checkedPathspec workspace second := by
  unfold checkedPathspec
  rw [same]

theorem searchText_congr {maxResults : Int}
    (same : (first.filter fun path => path ≠ "") = second.filter fun path => path ≠ "") :
    searchText workspace query first maxResults =
      searchText workspace query second maxResults := by
  unfold searchText
  rw [checkedPathspec_congr same]

theorem listFiles_congr
    (same : (first.filter fun path => path ≠ "") = second.filter fun path => path ≠ "") :
    listFiles workspace first = listFiles workspace second := by
  unfold listFiles
  rw [checkedPathspec_congr same]

theorem evidence_batch_read :
    evidence (execute workspace "batch_read" arguments) =
      match Json.field arguments "ranges" with
      | .array (range :: ranges) =>
          rangesAt
            (((range :: ranges).take batchReadMaxRanges).mapM (requestedLines workspace))
      | _ => none := by
  unfold execute
  rw [if_neg (by decide), if_pos rfl]
  cases Json.field arguments "ranges" with
  | array items =>
      cases items with
      | nil => rfl
      | cons range ranges => exact evidence_batchRead
  | null | bool _ | int _ | float _ | string _ | object _ => rfl

theorem evidence_search_text :
    evidence (execute workspace "search_text" arguments) =
      match nonEmptyText (Json.field arguments "query"),
        optionalPath (Json.field arguments "path"),
        boundedInt (Json.fieldOr arguments "max_results" (.int 40)) 40 1 (some 100) with
      | some query, some path, .ok maxResults =>
          evidence (searchText workspace query path maxResults)
      | _, _, _ => none := by
  unfold execute
  rw [if_neg (by decide), if_neg (by decide), if_pos rfl]
  cases nonEmptyText (Json.field arguments "query") with
  | none => rfl
  | some query =>
      cases optionalPath (Json.field arguments "path") with
      | none => rfl
      | some path =>
          cases boundedInt (Json.fieldOr arguments "max_results" (.int 40)) 40 1
            (some 100) with
          | error raised => rfl
          | ok maxResults => rfl

theorem evidence_list_files :
    evidence (execute workspace "list_files" arguments) =
      match optionalPath (Json.field arguments "path") with
      | some path => evidence (listFiles workspace path)
      | none => none := by
  unfold execute
  rw [if_neg (by decide), if_neg (by decide), if_neg (by decide), if_pos rfl]
  cases optionalPath (Json.field arguments "path") with
  | none => rfl
  | some path => rfl

end Calls

/-! ## Trees that tell paths and commands apart -/

section Marked

/-- One file for a path, and another one for all others. -/
def mark (wanted parts : List String) : String :=
  if parts = wanted then "/w/0" else "/w/1"

/-- A tree that tells one path, and a git that answers one command. -/
def markedTree (wanted command : List String) : Workspace where
  root := "/w"
  realpath value :=
    .ok (if components value = [] then "/w" else mark wanted (components value))
  isFile target := .ok (target ≠ "/w")
  git arguments :=
    .ok { returnCode := if arguments = command then 0 else 2, stdout := "", stderr := "" }
  realpath_raises := by
    intro value raised failed
    cases failed
  isFile_raises := by
    intro target raised failed
    cases failed
  git_raises := by
    intro arguments raised failed
    cases failed

variable {wanted command parts : List String} {path query : String} {item : Json}
  {given : Option String} {maxResults : Int}

theorem mark_eq : mark wanted parts = "/w/0" ∨ mark wanted parts = "/w/1" := by
  unfold mark
  split
  · exact Or.inl rfl
  · exact Or.inr rfl

theorem isTree_markedTree : (markedTree wanted command).IsTree where
  spelled first second same := by
    have parts : components (slashed first) = components (slashed second) := same
    unfold markedTree
    dsimp only
    rw [parts]
  root path none_ := by
    have parts : components (slashed path) = [] := none_
    unfold markedTree
    dsimp only
    rw [if_pos parts]
  directory := rfl

theorem resolve_markedTree : ∃ target, (markedTree wanted command).resolve path = .ok target ∧
    target = if pathParts path = [] then "/w" else mark wanted (pathParts path) := by
  refine ⟨_, ?_, rfl⟩
  have found : (markedTree wanted command).realpath (slashed path) =
      .ok (if pathParts path = [] then "/w" else mark wanted (pathParts path)) := rfl
  unfold Workspace.resolve
  rw [found, Except.ok_bind, if_pos]
  split
  · exact Workspace.contains_root
  · have inside : ∀ target, (markedTree wanted command).contains target =
        (decide (target = "/w") || ['/', 'w', '/'].isPrefixOf target.toList) := by
      intro target
      have root : (markedTree wanted command).root = "/w" := rfl
      have below : ("/w" ++ "/").toList = ['/', 'w', '/'] := by decide +kernel
      unfold Workspace.contains
      rw [root]
      dsimp only
      rw [if_neg (by decide), below]
    rw [inside]
    rcases @mark_eq wanted (pathParts path) with same | same
    · rw [same]
      decide +kernel
    · rw [same]
      decide +kernel

theorem look_markedTree :
    (markedTree wanted command).look path = .ok ((placeOf path).map (mark wanted)) := by
  obtain ⟨target, found, written⟩ := @resolve_markedTree wanted command path
  unfold Workspace.look
  rw [found, written]
  unfold placeOf
  by_cases root : pathParts path = []
  · rw [root]
    rfl
  · rw [if_neg root]
    simp only [Option.filter_some, decide_eq_true root, if_true, Option.map_some]
    rcases @mark_eq wanted (pathParts path) with same | same
    · rw [same]
      rfl
    · rw [same]
      rfl

theorem requestedLines_markedTree :
    requestedLines (markedTree wanted command) item =
      .ok
        ((requestedRange item).bind fun range =>
          (placeOf range.1).map fun parts => (mark wanted parts, range.2)) := by
  unfold requestedLines
  cases requestedRange item with
  | none => rfl
  | some range =>
      obtain ⟨path, start, stop⟩ := range
      dsimp only
      rw [look_markedTree, Option.bind_some]
      cases placeOf path with
      | none => rfl
      | some parts => rfl

/-- What tells a place from others tells it. -/
theorem eq_of_mark {first second : Option (List String)}
    (same : ∀ wanted, first.map (mark wanted) = second.map (mark wanted)) :
    first = second := by
  cases first with
  | none =>
      cases second with
      | none => rfl
      | some parts => cases same []
  | some parts =>
      cases second with
      | none => cases same []
      | some others =>
          have told := Option.some.inj (same parts)
          unfold mark at told
          rw [if_pos rfl] at told
          by_cases isSame : others = parts
          · rw [isSame]
          · rw [if_neg isSame] at told
            exact absurd told (by decide)

theorem eq_of_map_mark {firsts seconds : List (Option (List String))}
    (same : ∀ wanted, firsts.map (Option.map (mark wanted)) =
      seconds.map (Option.map (mark wanted))) : firsts = seconds := by
  induction firsts generalizing seconds with
  | nil =>
      have none_ := same []
      rw [List.map_nil] at none_
      exact (List.map_eq_nil_iff.mp none_.symm).symm
  | cons first rest inductionHypothesis =>
      cases seconds with
      | nil => cases same []
      | cons second others =>
          have heads : ∀ wanted, first.map (mark wanted) = second.map (mark wanted) :=
            fun wanted => (List.cons.inj (same wanted)).1
          have tails : ∀ wanted, rest.map (Option.map (mark wanted)) =
              others.map (Option.map (mark wanted)) :=
            fun wanted => (List.cons.inj (same wanted)).2
          rw [eq_of_mark heads, inductionHypothesis tails]

def pathspecArguments : Option String → List String
  | none => []
  | some path => ["--", path]

theorem pathspecArguments_injective : Function.Injective pathspecArguments := by
  intro first second same
  cases first with
  | none =>
      cases second with
      | none => rfl
      | some path => cases same
  | some path =>
      cases second with
      | none => cases same
      | some other =>
          have paths : path = other := by
            simpa [pathspecArguments] using same
          rw [paths]

theorem checkedPathspec_markedTree :
    checkedPathspec (markedTree wanted command) given =
      .ok (pathspecArguments (given.filter fun path => path ≠ "")) := by
  unfold checkedPathspec
  cases given.filter fun path => path ≠ "" with
  | none => rfl
  | some path =>
      obtain ⟨target, found, _⟩ := @resolve_markedTree wanted command path
      dsimp only
      rw [found]
      rfl

theorem searchMatches_empty {workspace : Workspace} :
    searchMatches workspace { returnCode := 0, stdout := "", stderr := "" } maxResults =
      .ok .noMatches := by
  have lines : splitlines "" = [] := rfl
  have rows : grepRows { returnCode := 0, stdout := "", stderr := "" } maxResults = [] := by
    unfold grepRows
    rw [lines, List.filter_nil, List.take_nil]
  unfold searchMatches
  rw [if_neg (by decide)]
  dsimp only
  rw [if_pos rows]

theorem evidence_searchText_markedTree :
    evidence (searchText (markedTree wanted command) query given maxResults) =
      if grepCommand (markedTree wanted command) query
          (pathspecArguments (given.filter fun path => path ≠ "")) = command then
        some (.rows [] [])
      else none := by
  unfold searchText
  rw [checkedPathspec_markedTree, Except.ok_bind]
  generalize grepCommand _ query _ = arguments
  unfold markedTree
  dsimp only
  rw [Except.ok_bind]
  by_cases answered : arguments = command
  · rw [if_pos answered, if_pos answered, searchMatches_empty]
    rfl
  · rw [if_neg answered, if_neg answered]
    rfl

/-- The command of `list_files`. -/
def listCommand (workspace : Workspace) (pathspec : List String) : List String :=
  ["git", "-C", workspace.root, "ls-files"] ++ pathspec

theorem evidence_listFiles_markedTree :
    evidence (listFiles (markedTree wanted command) given) =
      if listCommand (markedTree wanted command)
          (pathspecArguments (given.filter fun path => path ≠ "")) = command then
        some (.files [])
      else none := by
  unfold listFiles
  rw [checkedPathspec_markedTree, Except.ok_bind]
  change evidence ((markedTree wanted command).git (listCommand _ _) >>= _) = _
  generalize listCommand _ _ = arguments
  unfold markedTree
  dsimp only
  rw [Except.ok_bind]
  by_cases answered : arguments = command
  · rw [if_pos answered, if_pos answered]
    rfl
  · rw [if_neg answered, if_neg answered]
    rfl

end Marked

end PeReview
