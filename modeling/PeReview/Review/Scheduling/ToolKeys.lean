import PeReview.Repos.Tools

/-!
# The key of a tool call

`_tool_call_key` of `review/scheduling.py`: calls with the same key are taken for
duplicates.  A key is given by the value whose text it is, and by whether Python can
write that text.
-/

namespace PeReview.Scheduling

open PeReview.Data

/-- `bool(value)`. -/
def truthyValue : Json → Bool
  | .null => false
  | .bool value => value
  | .int value => value ≠ 0
  | .float (.finite value) => value ≠ 0
  | .float _ => true
  | .string text => text ≠ ""
  | .array items => !items.isEmpty
  | .object fields => !fields.isEmpty

/-- The components `posixpath.normpath` keeps of a path without a leading slash, the
last one first. -/
def keepComponents (kept : List String) : List String → List String
  | [] => kept
  | component :: rest =>
      if component = "" ∨ component = "." then keepComponents kept rest
      else if component = ".." then
        match kept with
        | [] => keepComponents [".."] rest
        | last :: others =>
            if last = ".." then keepComponents (".." :: last :: others) rest
            else keepComponents others rest
      else keepComponents (component :: kept) rest

/-- `posixpath.normpath`, of a path without a leading slash. -/
def normpath (path : String) : String :=
  let components := (path.toList.splitOn '/').map String.ofList
  let kept := (keepComponents [] components).reverse
  if kept = [] then "." else String.intercalate "/" kept

/-- `_canonical_path`. -/
def canonicalPath : Json → Json
  | .string value =>
      let normalized := normpath (slashed value)
      .string (if normalized = "." then "" else normalized)
  | value => value

/-- `_canonical_int`. -/
def canonicalInt (value : Json) (default low : Int) (high : Option Int := none) :
    Except Failure Json :=
  match value.toInt with
  | .ok parsed => .ok (.int (clamp low high parsed))
  | .error .overflowError => .error overflow
  | .error _ =>
      match value with
      | .null => .ok (.int default)
      | value => .ok value

/-- One range of `batch_read`, for the key. -/
def canonicalRange (item : Json) : Json :=
  match item.fields? with
  | none => item
  | some range =>
      let start := Json.field range "start_line"
      let stop :=
        match positiveInt start, positiveInt (Json.field range "end_line") with
        | some start, some stop => .int (min stop (start + 199))
        | _, _ => Json.field range "end_line"
      .object
        [("path", canonicalPath (Json.field range "path")), ("start_line", start),
          ("end_line", stop)]

/-- `_canonical_path(path) if path else None`. -/
def canonicalOptionalPath (path : Json) : Json :=
  if truthyValue path then canonicalPath path else .null

/-- `end` of `read_file`. -/
def canonicalEnd (value : Json) (start : Int) : Except Failure Json :=
  match value with
  | .null => .ok (.int (start + 199))
  | value => canonicalInt value (start + 199) 1

/-- `_canonical_tool_arguments`. -/
def canonicalToolArguments (name : String) (arguments : Dict String Json) :
    Except Failure (Dict String Json) :=
  if name = "read_file" then do
    match ← canonicalInt (Json.fieldOr arguments "start_line" (.int 1)) 1 1 with
    | .int start =>
        let stop ← canonicalEnd (Json.field arguments "end_line") start
        .ok
          [("path", canonicalPath (Json.field arguments "path")),
            ("start_line", .int start), ("end_line", stop)]
    -- The executor returns its normal validation error.
    | _ => .ok arguments
  else if name = "batch_read" then
    match Json.field arguments "ranges" with
    | .array ranges => .ok [("ranges", .array ((ranges.take 6).map canonicalRange))]
    | _ => .ok arguments
  else if name = "search_text" then do
    let maxResults ←
      canonicalInt (Json.fieldOr arguments "max_results" (.int 40)) 40 1 (some 100)
    .ok
      [("query", Json.field arguments "query"),
        ("path", canonicalOptionalPath (Json.field arguments "path")),
        ("max_results", maxResults)]
  else if name = "list_files" then
    .ok [("path", canonicalOptionalPath (Json.field arguments "path"))]
  else .ok arguments

/-- `_tool_call_key`, by the arguments it writes. -/
def canonicalToolCallKey (name : String) (arguments : Dict String Json) :
    Except Failure (String × Dict String Json) := do
  let canonical ← canonicalToolArguments name arguments
  if Json.allFields Json.writtenScalar canonical then .ok (name, canonical)
  else
    .error
      { kind := .valueError
        text := "Exceeds the limit (4300 digits) for integer string conversion" }

end PeReview.Scheduling
