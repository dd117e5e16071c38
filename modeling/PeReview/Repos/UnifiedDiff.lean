import PeReview.Data.Lines
import PeReview.Domain

/-!
# Diffs without context lines

The sections of a diff, and their text as `git diff --unified=0` writes it.
-/

namespace PeReview

def DiffSide.mark : DiffSide → Char
  | .parent => '-'
  | .revision => '+'

/-- A path git writes without quotes. -/
structure PlainPath where
  chars : List Char
  nonempty : chars ≠ []
  plain : ∀ char ∈ chars, 32 ≤ char.toNat ∧ char.toNat ≠ 127 ∧ char ≠ '"' ∧
    char ≠ '\\' ∧ isLineBreak char = false
  deriving DecidableEq

/-- A hunk: the lines it removes and the lines it adds. -/
structure DiffHunk where
  oldStart : Nat
  newStart : Nat
  removed : List (List Char)
  added : List (List Char)
  /-- What git repeats of an enclosing definition. -/
  heading : List Char := []
  /-- The last removed or added line is the last of a file that does not end with a
  line feed. -/
  oldUnended : Bool := false
  newUnended : Bool := false
  changes : removed ++ added ≠ []
  oldNumbered : removed ≠ [] → 1 ≤ oldStart
  newNumbered : added ≠ [] → 1 ≤ newStart
  lines : ∀ text ∈ removed ++ added, '\n' ∉ text
  oneHeading : '\n' ∉ heading
  deriving DecidableEq

/-- A file in a diff; an absent path is `/dev/null`. -/
structure FileSection where
  oldPath : Option PlainPath
  newPath : Option PlainPath
  /-- The extended header lines, such as `new file mode 100644`. -/
  extended : List (List Char) := []
  hunks : List DiffHunk
  present : oldPath.isSome ∨ newPath.isSome
  worded : ∀ line ∈ extended, (∃ char ∈ line.head?, char.isAlpha = true) ∧
    Unbroken line

namespace DiffHunk

def range (start count : Nat) : List Char :=
  Nat.toDigits 10 start ++
    if count = 1 then [] else ',' :: Nat.toDigits 10 count

/-- `@@ -4,2 +4 @@`. -/
def ranges (hunk : DiffHunk) : List Char :=
  ['@', '@', ' ', '-'] ++ (range hunk.oldStart hunk.removed.length ++
    [' ', '+'] ++ (range hunk.newStart hunk.added.length ++ [' ', '@', '@']))

/-- `@@ -4,2 +4 @@ heading`. -/
def header (hunk : DiffHunk) : List Char :=
  hunk.ranges ++ if hunk.heading = [] then [] else ' ' :: hunk.heading

/-- Changed lines of one side with successive numbers. -/
def numbered (side : DiffSide) (path : List Char) (start : Nat)
    (lines : List (List Char)) : List ChangedLine :=
  lines.mapIdx fun index text =>
    { path := String.ofList path, side, line := start + index
      text := String.ofList text }

/-- The remark below a last line without a line feed. -/
def unended (lines : List (List Char)) (flag : Bool) : List (List Char) :=
  if flag && lines ≠ [] then ["\\ No newline at end of file".toList] else []

/-- The lines git writes for the lines of one side. -/
def marked (side : DiffSide) (lines : List (List Char)) (flag : Bool) :
    List (List Char) :=
  lines.map (fun text => side.mark :: text) ++ unended lines flag

def rendered (hunk : DiffHunk) : List (List Char) :=
  hunk.header ::
    (marked .parent hunk.removed hunk.oldUnended ++
      marked .revision hunk.added hunk.newUnended)

def entries (path : List Char) (hunk : DiffHunk) : List ChangedLine :=
  numbered .parent path hunk.oldStart hunk.removed ++
    numbered .revision path hunk.newStart hunk.added

end DiffHunk

namespace FileSection

/-- The new path of a section, or the old one when the file was deleted. -/
def path (file : FileSection) : List Char :=
  match file.newPath, file.oldPath with
  | some path, _ => path.chars
  | none, some path => path.chars
  | none, none => []

/-- A path in a header line; a tab ends one that contains a space. -/
def hinted (path : List Char) : List Char :=
  if ' ' ∈ path then path ++ ['\t'] else path

def side (mark : String) (label : Char) (path : Option PlainPath) : List Char :=
  mark.toList ++
    match path with
    | none => " /dev/null".toList
    | some path => ' ' :: label :: '/' :: hinted path.chars

/-- The path of one side in the first line of a section. -/
def name (first second : Option PlainPath) : List Char :=
  match first, second with
  | some path, _ => path.chars
  | none, some path => path.chars
  | none, none => []

def rendered (file : FileSection) : List (List Char) :=
  ("diff --git a/".toList ++ name file.oldPath file.newPath ++ " b/".toList ++
      name file.newPath file.oldPath) ::
    (file.extended ++
      if file.hunks = [] then []
      else
        side "---" 'a' file.oldPath :: side "+++" 'b' file.newPath ::
          file.hunks.flatMap DiffHunk.rendered)

def entries (file : FileSection) : List ChangedLine :=
  file.hunks.flatMap (DiffHunk.entries file.path)

end FileSection

def renderDiff (sections : List FileSection) : List Char :=
  unlines (sections.flatMap FileSection.rendered)

end PeReview
