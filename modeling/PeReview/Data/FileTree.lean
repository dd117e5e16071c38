import Mathlib.Data.List.Basic

/-!
# Trees of files with symbolic links

Absolute paths are lists of names.  A path is resolved as `os.path.realpath` does it: name by
name, a link being followed where it stands.  What is resolved has no link on the way, so it
resolves to itself.
-/

namespace PeReview.Data

abbrev FileName := List Char

abbrev FilePath := List FileName

namespace FilePath

def parent : FileName :=
  ['.', '.']

/-- A name a directory can list. -/
structure IsName (name : FileName) : Prop where
  notEmpty : name ≠ []
  notSelf : name ≠ ['.']
  notParent : name ≠ parent
  unsplit : '/' ∉ name

/-- The names of a text, without those that stay where they are. -/
def parts (text : List Char) : List FileName :=
  (text.splitOn '/').filter fun name => name ≠ [] ∧ name ≠ ['.']

/-- The names of a path, each behind a slash. -/
def encode (path : FilePath) : List Char :=
  path.flatMap fun name => '/' :: name

def render (path : FilePath) : List Char :=
  if path = [] then ['/'] else encode path

@[simp]
theorem parts_nil : parts [] = [] :=
  rfl

theorem parts_append (first rest : List Char) :
    parts (first ++ '/' :: rest) = parts first ++ parts rest := by
  unfold parts
  rw [List.splitOn_append_cons_self, List.filter_append]

theorem parts_slash (rest : List Char) : parts ('/' :: rest) = parts rest :=
  parts_append [] rest

theorem parts_of_isName {name : FileName} (isName : IsName name) : parts name = [name] := by
  unfold parts
  rw [List.splitOn_eq_singleton isName.unsplit, List.filter_cons_of_pos, List.filter_nil]
  rw [decide_eq_true_eq]
  exact ⟨isName.notEmpty, isName.notSelf⟩

theorem encode_cons (name : FileName) (path : FilePath) :
    encode (name :: path) = '/' :: (name ++ encode path) :=
  rfl

/-- A path is read back from its text. -/
theorem parts_encode {path : FilePath} (names : ∀ name ∈ path, IsName name) :
    parts (encode path) = path := by
  induction path with
  | nil =>
      rfl
  | cons name rest inductionHypothesis =>
      have isName := names name List.mem_cons_self
      have read := inductionHypothesis fun other member =>
        names other (List.mem_cons_of_mem name member)
      rw [encode_cons, parts_slash]
      cases rest with
      | nil =>
          rw [encode, List.flatMap_nil, List.append_nil, parts_of_isName isName]
      | cons next others =>
          rw [encode_cons, parts_slash] at read
          rw [encode_cons, parts_append, parts_of_isName isName, read]
          rfl

theorem parts_render {path : FilePath} (names : ∀ name ∈ path, IsName name) :
    parts (render path) = path := by
  unfold render
  split
  · rename_i empty
    rw [empty]
    rfl
  · exact parts_encode names

/-- A piece of a split text is free of slashes. -/
theorem not_mem_of_mem_splitOn {text name : List Char} (member : name ∈ text.splitOn '/') :
    '/' ∉ name := by
  induction text generalizing name with
  | nil =>
      rw [List.splitOn_nil, List.mem_singleton] at member
      rw [member]
      exact List.not_mem_nil
  | cons char rest inductionHypothesis =>
      rw [List.splitOn_cons_eq_if_modifyHead] at member
      split at member
      · rcases List.mem_cons.mp member with same | later
        · rw [same]
          exact List.not_mem_nil
        · exact inductionHypothesis later
      · rename_i different
        cases pieces : rest.splitOn '/' with
        | nil => exact absurd pieces (List.splitOn_ne_nil _ _)
        | cons piece others =>
            rw [pieces] at member inductionHypothesis
            rcases List.mem_cons.mp member with same | later
            · rw [same]
              intro inside
              rcases List.mem_cons.mp inside with isChar | deeper
              · rw [← isChar] at different
                exact different rfl
              · exact inductionHypothesis List.mem_cons_self deeper
            · exact inductionHypothesis (List.mem_cons_of_mem piece later)

theorem isName_of_mem_parts {text : List Char} {name : FileName}
    (member : name ∈ parts text) : name = parent ∨ IsName name := by
  obtain ⟨piece, kept⟩ := List.mem_filter.mp member
  rw [decide_eq_true_eq] at kept
  by_cases up : name = parent
  · exact Or.inl up
  · exact Or.inr ⟨kept.1, kept.2, up, not_mem_of_mem_splitOn piece⟩

/-- The pieces of a split text hold its characters, without the slashes. -/
theorem flatten_splitOn (text : List Char) :
    (text.splitOn '/').flatten = text.filter fun char => char ≠ '/' := by
  induction text with
  | nil => rfl
  | cons char rest inductionHypothesis =>
      rw [List.splitOn_cons_eq_if_modifyHead]
      by_cases slash : char = '/'
      · rw [if_pos (beq_iff_eq.mpr slash), List.flatten_cons, inductionHypothesis]
        simp [slash]
      · have other : ¬(char == '/') = true := by
          rw [beq_iff_eq]
          exact slash
        rw [if_neg other]
        cases pieces : rest.splitOn '/' with
        | nil => exact absurd pieces (List.splitOn_ne_nil _ _)
        | cons piece others =>
            rw [pieces, List.flatten_cons] at inductionHypothesis
            rw [List.modifyHead_cons, List.flatten_cons, List.cons_append,
              inductionHypothesis]
            simp [slash]

/-- A character that neither splits a text nor may stand alone is in one of its names. -/
theorem mem_parts {text : List Char} {char : Char} (unsplit : char ≠ '/')
    (notDot : char ≠ '.') : char ∈ text ↔ ∃ name ∈ parts text, char ∈ name := by
  have pieces : char ∈ text ↔ ∃ piece ∈ text.splitOn '/', char ∈ piece := by
    rw [← List.mem_flatten, flatten_splitOn, List.mem_filter, decide_eq_true_eq]
    exact (and_iff_left unsplit).symm
  rw [pieces]
  constructor
  · rintro ⟨piece, isPiece, inside⟩
    refine ⟨piece, List.mem_filter.mpr ⟨isPiece, ?_⟩, inside⟩
    rw [decide_eq_true_eq]
    constructor
    · intro empty
      rw [empty] at inside
      cases inside
    · intro dot
      rw [dot] at inside
      exact notDot (List.mem_singleton.mp inside)
  · rintro ⟨name, isName, inside⟩
    exact ⟨name, (List.mem_filter.mp isName).1, inside⟩

/-! ## Paths below a path -/

/-- The names of a text in front of a slash are those of the path. -/
theorem eq_of_prefix_slash {name other : FileName} {rest tail : List Char}
    (unsplit : '/' ∉ name) (otherUnsplit : '/' ∉ other)
    (ends : tail = [] ∨ ∃ more, tail = '/' :: more)
    (start : name ++ '/' :: rest <+: other ++ tail) :
    name = other ∧ '/' :: rest <+: tail := by
  induction name generalizing other with
  | nil =>
      cases other with
      | nil => exact ⟨rfl, start⟩
      | cons char others =>
          obtain ⟨same, _⟩ := List.cons_prefix_cons.mp start
          rw [← same] at otherUnsplit
          exact absurd List.mem_cons_self otherUnsplit
  | cons char name inductionHypothesis =>
      cases other with
      | nil =>
          rcases ends with empty | ⟨more, slashed⟩
          · rw [empty] at start
            exact absurd (List.prefix_nil.mp start) (by simp)
          · rw [slashed] at start
            obtain ⟨same, _⟩ := List.cons_prefix_cons.mp start
            rw [same] at unsplit
            exact absurd List.mem_cons_self unsplit
      | cons first others =>
          obtain ⟨same, later⟩ := List.cons_prefix_cons.mp start
          have names := inductionHypothesis
            (fun inside => unsplit (List.mem_cons_of_mem _ inside))
            (fun inside => otherUnsplit (List.mem_cons_of_mem _ inside)) later
          rw [same, names.1]
          exact ⟨rfl, names.2⟩

theorem encode_ends (path : FilePath) :
    encode path = [] ∨ ∃ more, encode path = '/' :: more := by
  cases path with
  | nil => exact Or.inl rfl
  | cons name rest => exact Or.inr ⟨name ++ encode rest, rfl⟩

theorem prefix_of_encode {root path : FilePath} (rootNames : ∀ name ∈ root, IsName name)
    (names : ∀ name ∈ path, IsName name)
    (start : encode root ++ ['/'] <+: encode path) : root <+: path := by
  induction root generalizing path with
  | nil => exact List.nil_prefix
  | cons name root inductionHypothesis =>
      cases path with
      | nil =>
          have empty := List.prefix_nil.mp start
          cases empty
      | cons other path =>
          rw [encode_cons, encode_cons, List.cons_append, List.append_assoc] at start
          have tails := (List.cons_prefix_cons.mp start).2
          have slashed : ∃ more, encode root ++ ['/'] = '/' :: more := by
            rcases encode_ends root with empty | ⟨more, same⟩
            · exact ⟨[], by rw [empty]; rfl⟩
            · exact ⟨more ++ ['/'], by rw [same]; rfl⟩
          obtain ⟨more, same⟩ := slashed
          rw [same] at tails
          obtain ⟨equal, later⟩ := eq_of_prefix_slash
            (rootNames name List.mem_cons_self).unsplit
            (names other List.mem_cons_self).unsplit (encode_ends path) tails
          rw [← same] at later
          have below := inductionHypothesis
            (fun child member => rootNames child (List.mem_cons_of_mem _ member))
            (fun child member => names child (List.mem_cons_of_mem _ member)) later
          rw [equal]
          exact List.cons_prefix_cons.mpr ⟨rfl, below⟩

theorem encode_append (first rest : FilePath) :
    encode (first ++ rest) = encode first ++ encode rest :=
  List.flatMap_append

theorem render_injective {first second : FilePath} (firstNames : ∀ name ∈ first, IsName name)
    (secondNames : ∀ name ∈ second, IsName name) (same : render first = render second) :
    first = second := by
  rw [← parts_render firstNames, same, parts_render secondNames]

/-- The text every path below a path starts with. -/
def below (root : FilePath) : List Char :=
  if root = [] then ['/'] else encode root ++ ['/']

/-- A path lies below another one exactly where its text says so. -/
theorem below_iff {root path : FilePath} (rootNames : ∀ name ∈ root, IsName name)
    (names : ∀ name ∈ path, IsName name) :
    render path = render root ∨ below root <+: render path ↔ root <+: path := by
  unfold below
  by_cases isTop : root = []
  · rw [if_pos isTop, isTop]
    refine ⟨fun _ => List.nil_prefix, fun _ => Or.inr ?_⟩
    unfold render
    split
    · exact List.prefix_refl _
    · rename_i notTop
      rcases encode_ends path with empty | ⟨more, same⟩
      · exact absurd ((parts_encode names).symm.trans (by rw [empty]; rfl)) notTop
      · rw [same]
        exact ⟨more, rfl⟩
  · rw [if_neg isTop]
    constructor
    · rintro (same | start)
      · exact render_injective names rootNames same ▸ List.prefix_refl _
      · unfold render at start
        split at start
        · cases root with
          | nil => exact absurd rfl isTop
          | cons name rest =>
              have short := start.length_le
              simp [encode_cons] at short
        · exact prefix_of_encode rootNames names start
    · rintro ⟨rest, rfl⟩
      cases rest with
      | nil =>
          rw [List.append_nil]
          exact Or.inl rfl
      | cons name others =>
          right
          unfold render
          rw [if_neg (by simp), encode_append, encode_cons]
          exact ⟨name ++ encode others, by simp⟩

end FilePath

/-! ## Trees -/

inductive FileEntry
  | directory
  | file (content : List UInt8)
  | link (target : List Char)
  deriving DecidableEq, Repr

/-- What is found at each path, links not being followed. -/
structure FileTree where
  entry : FilePath → Option FileEntry

namespace FileTree

open FilePath

variable (tree : FileTree)

def enter (follow : FilePath → List Char → Option FilePath) (path : FilePath)
    (name : FileName) : Option FilePath :=
  if name = parent then some path.dropLast
  else
    match tree.entry (path ++ [name]) with
    | some (.link target) => follow path target
    | _ => some (path ++ [name])

/-- A link is followed; more nested ones than the tree has are a loop. -/
def follow : Nat → FilePath → List Char → Option FilePath
  | 0, _, _ => none
  | depth + 1, path, target =>
      (parts target).foldlM (tree.enter (follow depth))
        (if target.head? = some '/' then [] else path)

/-- `os.path.realpath` of an absolute path. -/
def realpath (depth : Nat) (text : List Char) : Option FilePath :=
  (parts text).foldlM (tree.enter (tree.follow depth)) []

def read (depth : Nat) (text : List Char) : Option (List UInt8) :=
  match (tree.realpath depth text).bind tree.entry with
  | some (.file content) => some content
  | _ => none

/-- A path of names with no link on the way. -/
structure Real (path : FilePath) : Prop where
  names : ∀ name ∈ path, IsName name
  links : ∀ first, first <+: path → first ≠ [] →
    ∀ target, tree.entry first ≠ some (.link target)

variable {tree}

theorem Real.nil : tree.Real [] where
  names := by
    intro name member
    cases member
  links := by
    intro first below notRoot
    exact absurd (List.prefix_nil.mp below) notRoot

theorem Real.of_prefix {path first : FilePath} (real : tree.Real path)
    (below : first <+: path) : tree.Real first where
  names name member := real.names name (below.subset member)
  links other lower := real.links other (lower.trans below)

theorem Real.append {path : FilePath} {name : FileName} (real : tree.Real path)
    (isName : IsName name) (unlinked : ∀ target, tree.entry (path ++ [name]) ≠ some (.link target)) :
    tree.Real (path ++ [name]) where
  names other member := by
    rcases List.mem_append.mp member with before | last
    · exact real.names other before
    · rw [List.mem_singleton.mp last]
      exact isName
  links first below notRoot := by
    rcases List.prefix_concat_iff.mp below with whole | before
    · rw [whole]
      exact unlinked
    · exact real.links first before notRoot

theorem real_enter {depth : FilePath → List Char → Option FilePath} {path place : FilePath}
    {name : FileName}
    (follows : ∀ path target place, tree.Real path → depth path target = some place →
      tree.Real place)
    (real : tree.Real path) (isName : name = parent ∨ IsName name)
    (entered : tree.enter depth path name = some place) : tree.Real place := by
  unfold enter at entered
  split at entered
  · cases entered
    exact real.of_prefix (List.dropLast_prefix path)
  · rename_i notParent
    have proper := isName.resolve_left notParent
    split at entered
    · exact follows _ _ _ real entered
    · rename_i unlinked
      cases entered
      apply real.append proper
      intro target isLink
      exact unlinked target isLink

/-- Resolving keeps to paths without links. -/
theorem real_walk {depth : FilePath → List Char → Option FilePath} {path place : FilePath}
    {names : List FileName}
    (follows : ∀ path target place, tree.Real path → depth path target = some place →
      tree.Real place)
    (real : tree.Real path) (proper : ∀ name ∈ names, name = parent ∨ IsName name)
    (walked : names.foldlM (tree.enter depth) path = some place) : tree.Real place := by
  induction names generalizing path with
  | nil =>
      cases walked
      exact real
  | cons name rest inductionHypothesis =>
      rw [List.foldlM_cons] at walked
      obtain ⟨next, entered, later⟩ := Option.bind_eq_some_iff.mp walked
      exact inductionHypothesis
        (real_enter follows real (proper name List.mem_cons_self) entered)
        (fun other member => proper other (List.mem_cons_of_mem name member)) later

theorem real_follow {depth : Nat} {path place : FilePath} {target : List Char}
    (real : tree.Real path) (followed : tree.follow depth path target = some place) :
    tree.Real place := by
  induction depth generalizing path place target with
  | zero => cases followed
  | succ depth inductionHypothesis =>
      unfold follow at followed
      refine real_walk (fun _ _ _ => inductionHypothesis) ?_
        (fun name member => isName_of_mem_parts member) followed
      split
      · exact .nil
      · exact real

/-- What is resolved has no link on the way. -/
theorem real_realpath {depth : Nat} {text : List Char} {place : FilePath}
    (resolved : tree.realpath depth text = some place) : tree.Real place :=
  real_walk (fun _ _ _ => real_follow) .nil (fun _ member => isName_of_mem_parts member) resolved

/-- Where there is no link, resolving goes straight ahead. -/
theorem walk_of_real {depth : FilePath → List Char → Option FilePath} {path rest : FilePath}
    (real : tree.Real (path ++ rest)) :
    rest.foldlM (tree.enter depth) path = some (path ++ rest) := by
  induction rest generalizing path with
  | nil =>
      rw [List.append_nil]
      rfl
  | cons name rest inductionHypothesis =>
      have inside : name ∈ path ++ name :: rest := by simp
      have here : path ++ [name] <+: path ++ name :: rest := ⟨rest, by simp⟩
      have entered : tree.enter depth path name = some (path ++ [name]) := by
        unfold enter
        rw [if_neg (real.names name inside).notParent]
        split
        · rename_i target isLink
          exact absurd isLink (real.links _ here (by simp) target)
        · rfl
      have later : tree.Real (path ++ [name] ++ rest) := by
        rw [List.append_assoc]
        exact real
      rw [List.foldlM_cons, entered]
      refine (inductionHypothesis later).trans ?_
      rw [List.append_assoc]
      rfl

/-- What is resolved resolves to itself. -/
theorem realpath_render {depth : Nat} {place : FilePath} (real : tree.Real place) :
    tree.realpath depth (render place) = some place := by
  unfold realpath
  rw [parts_render real.names]
  exact walk_of_real real

/-- Opening a path without links opens what stands there. -/
theorem read_render {depth : Nat} {place : FilePath} (real : tree.Real place)
    {content : List UInt8} :
    tree.read depth (render place) = some content ↔ tree.entry place = some (.file content) := by
  unfold read
  rw [realpath_render real, Option.bind_some]
  cases tree.entry place with
  | none => simp
  | some entry => cases entry <;> simp

end FileTree

end PeReview.Data
