import Mathlib.Data.List.DropRight
import PeReview.Data.Dict
import PeReview.Data.Json
import PeReview.Data.Utf8
import PeReview.Review.Lineage

/-!
# The bounded reader

`_read_text_ranges_bounded` of `repos/tools.py` and the lines it reads.  A file is its
bytes; the keys of the ranges differ, so each has a state of its own.
-/

namespace PeReview

open PeReview.Data

/-- An open file: what it gives, and the error that ends the reading, if there is one. -/
structure FileHandle where
  bytes : List UInt8
  failure : Option String
  deriving DecidableEq, Repr

/-- `_FILE_READ_CHUNK_BYTES`. -/
def fileReadChunkBytes : Nat := 64 * 1024

/-- `handle.readline(limit)`: what is read and what is left. -/
def readline : Nat → List UInt8 → List UInt8 × List UInt8
  | _, [] => ([], [])
  | limit, byte :: rest =>
      if limit = 0 then ([], byte :: rest)
      else if byte = 10 then ([byte], rest)
      else
        let (segment, rest) := readline (limit - 1) rest
        (byte :: segment, rest)

/-- `rstrip(b"\r\n")`. -/
def rstripEnds (bytes : List UInt8) : List UInt8 :=
  bytes.rdropWhile fun byte => byte = 13 || byte = 10

/-- A line `_iter_bounded_binary_lines` yields. -/
structure BoundedLine where
  number : Int
  bytes : List UInt8
  truncated : Bool
  deriving DecidableEq, Repr

/-- The variables of `_iter_bounded_binary_lines`. -/
structure LineReader where
  lineNumber : Int := 1
  kept : List UInt8 := []
  truncated : Bool := false
  sawSegment : Bool := false
  deriving DecidableEq, Repr

def LineReader.capture (reader : LineReader) (captureFromLine captureBytes : Int)
    (segment : List UInt8) : LineReader :=
  if captureFromLine ≤ reader.lineNumber then
    let remaining := captureBytes - reader.kept.length
    { reader with
      sawSegment := true
      kept := reader.kept ++ segment.take remaining.toNat
      truncated := reader.truncated || decide (max remaining 0 < segment.length) }
  else { reader with sawSegment := true }

def LineReader.line (reader : LineReader) : BoundedLine :=
  { number := reader.lineNumber, bytes := rstripEnds reader.kept
    truncated := reader.truncated }

/-- `_iter_bounded_binary_lines`: the lines, and the error the file ends with.  Every
segment takes a byte. -/
def iterFrom (failure : Option String) (captureFromLine stopAfterLine captureBytes : Int) :
    Nat → LineReader → List UInt8 → List BoundedLine × Option String
  | 0, _, _ => ([], none)
  | fuel + 1, reader, bytes =>
      if reader.lineNumber ≤ stopAfterLine then
        match readline fileReadChunkBytes bytes with
        | ([], _) =>
            if failure.isSome then ([], failure)
            else (if reader.sawSegment then [reader.line] else [], none)
        | (segment, rest) =>
            let reader := reader.capture captureFromLine captureBytes segment
            if segment.getLast? = some 10 then
              let (lines, raised) :=
                iterFrom failure captureFromLine stopAfterLine captureBytes fuel
                  { lineNumber := reader.lineNumber + 1 } rest
              (reader.line :: lines, raised)
            else
              iterFrom failure captureFromLine stopAfterLine captureBytes fuel reader rest
      else ([], none)

/-- `_iter_bounded_binary_lines`. -/
def iterBoundedBinaryLines (handle : FileHandle)
    (captureFromLine stopAfterLine captureBytes : Int) :
    List BoundedLine × Option String :=
  iterFrom handle.failure captureFromLine stopAfterLine captureBytes
    (handle.bytes.length + 1) {} handle.bytes

/-- `_truncate_inline_utf8`. -/
def truncateInlineUtf8 (value : List Char) (limit : Int) : List Char :=
  if (encodeUtf8 value).length ≤ limit then value
  else
    let keep := limit - (encodeUtf8 ['…']).length
    takeUtf8 keep.toNat value ++ ['…']

/-- `_truncate_text_bytes`. -/
def truncateTextBytes (value : String) (limit : Int) : String :=
  if value.utf8ByteSize ≤ limit then value
  else
    let marker := "\n<tool output truncated by byte limit>"
    let keep := limit - marker.utf8ByteSize
    String.ofList (takeUtf8 keep.toNat value.toList) ++ marker

/-- `json.dumps({"error": message, "path": path})`. -/
def pathError (message path : String) : String :=
  "\x7b\"error\": " ++ jsonString message ++ ", \"path\": " ++ jsonString path ++ "\x7d"

structure LineRange where
  key : Int
  start : Int
  stop : Int
  deriving DecidableEq, Repr

structure RangeState where
  parts : List String := []
  used : Nat := 0
  result : Option String := none
  done : Bool := false
  deriving DecidableEq, Repr

def validRanges (ranges : List LineRange) : List LineRange :=
  ranges.filter fun range => range.start ≤ range.stop

def initialStates (ranges : List LineRange) : Dict Int RangeState :=
  ranges.foldl
    (fun states range =>
      Dict.set states range.key
        (if range.stop < range.start then { result := some "<empty>" } else {}))
    []

/-- The text of a line; none where it is no text. -/
def lineText (maxLineBytes : Option Int) (line : BoundedLine) : Option (List Char) :=
  let rawLine := rstripEnds line.bytes
  if 0 ∈ rawLine then none
  else do
    let text ← decodeUtf8 (!line.truncated) rawLine
    let text := if line.truncated then text ++ ['…'] else text
    match maxLineBytes with
    | none => some text
    | some limit => some (truncateInlineUtf8 text limit)

/-- `f"{line_number}: {text}"`. -/
def numberedText (number : Int) (text : List Char) : String :=
  toString number ++ ": " ++ String.ofList text

/-- `rendered`. -/
def renderLine (maxLineBytes : Option Int) (line : BoundedLine) : Option String :=
  (lineText maxLineBytes line).map (numberedText line.number)

def RangeState.fail (path : String) (state : RangeState) : RangeState :=
  { state with result := some (pathError "binary/non-UTF8 file" path), done := true }

/-- The line is added to the range, or is where its output ends. -/
def RangeState.add (maxOutputBytes : Int) (rendered : String) (state : RangeState) :
    RangeState :=
  let separatorBytes := if state.parts = [] then 0 else 1
  let used := state.used + separatorBytes + rendered.utf8ByteSize
  if maxOutputBytes < used then
    { state with
      result :=
        some (truncateTextBytes (pyJoin "\n" (state.parts ++ [rendered])) maxOutputBytes)
      done := true }
  else { state with parts := state.parts ++ [rendered], used }

def RangeState.read (path : String) (maxOutputBytes : Int) (rendered : Option String) :
    RangeState → RangeState :=
  match rendered with
  | none => RangeState.fail path
  | some rendered => RangeState.add maxOutputBytes rendered

/-- `states[key]["done"]`. -/
def isDone (states : Dict Int RangeState) (key : Int) : Bool :=
  ((Dict.get? states key).map RangeState.done).getD true

/-- `active`. -/
def activeKeys (ranges : List LineRange) (states : Dict Int RangeState) (number : Int) :
    List Int :=
  (ranges.filter fun range =>
    range.start ≤ number && number ≤ range.stop && !isDone states range.key).map
      LineRange.key

def updateStates (change : RangeState → RangeState) (states : Dict Int RangeState)
    (keys : List Int) : Dict Int RangeState :=
  keys.foldl
    (fun states key =>
      match Dict.get? states key with
      | some state => Dict.set states key (change state)
      | none => states)
    states

/-- No range has a line behind this one. -/
def allRead (ranges : List LineRange) (states : Dict Int RangeState) (number : Int) : Bool :=
  ranges.all fun range => isDone states range.key || range.stop ≤ number

/-- The loop over the lines: the states, and whether the loop came to the end of them. -/
def readStates (path : String) (maxOutputBytes : Int) (maxLineBytes : Option Int)
    (minStart : Int) (ranges : List LineRange) :
    List BoundedLine → Dict Int RangeState → Dict Int RangeState × Bool
  | [], states => (states, true)
  | line :: rest, states =>
      let active := activeKeys ranges states line.number
      if line.number < minStart || active.isEmpty then
        readStates path maxOutputBytes maxLineBytes minStart ranges rest states
      else
        let rendered := renderLine maxLineBytes line
        let states := updateStates (.read path maxOutputBytes rendered) states active
        if allRead ranges states line.number then (states, false)
        else readStates path maxOutputBytes maxLineBytes minStart ranges rest states

def RangeState.text (state : RangeState) : String :=
  match state.result with
  | some result => result
  | none => if state.parts = [] then "<empty>" else pyJoin "\n" state.parts

/-- `max_line_bytes or max_output_bytes`. -/
def captureBytes (maxOutputBytes : Int) (maxLineBytes : Option Int) : Int :=
  match maxLineBytes with
  | none => maxOutputBytes
  | some limit => if limit = 0 then maxOutputBytes else limit

/-- `_read_text_ranges_bounded`; `target` is what opening the file gives. -/
def readTextRangesBounded (target : Except String FileHandle) (path : String)
    (ranges : List LineRange) (maxOutputBytes : Int) (maxLineBytes : Option Int) :
    Dict Int String :=
  let states := initialStates ranges
  let valid := validRanges ranges
  let raised (text : String) : Dict Int String :=
    states.map fun entry => (entry.1, pathError text path)
  match (valid.map LineRange.start).min?, (valid.map LineRange.stop).max? with
  | some minStart, some maxEnd =>
      match target with
      | .error text => raised text
      | .ok handle =>
          let (lines, failure) :=
            iterBoundedBinaryLines handle minStart maxEnd
              (captureBytes maxOutputBytes maxLineBytes)
          let (states, ended) :=
            readStates path maxOutputBytes maxLineBytes minStart valid lines states
          match if ended then failure else none with
          | some text => raised text
          | none => states.map fun entry => (entry.1, entry.2.text)
  | _, _ => states.map fun entry => (entry.1, entry.2.text)

/-- `_read_text_range_bounded`. -/
def readTextRangeBounded (target : Except String FileHandle) (path : String)
    (startLine endLine maxOutputBytes : Int) : Option String :=
  Dict.get?
    (readTextRangesBounded target path [{ key := 0, start := startLine, stop := endLine }]
      maxOutputBytes none) 0

end PeReview
