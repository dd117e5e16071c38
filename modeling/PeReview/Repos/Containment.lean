import PeReview.Data.FileTree
import PeReview.Repos.Evidence

/-!
# The tools read below the root

The executor over a tree of files with symbolic links: whatever a call names, with slashes
and backslashes, parents and links to anywhere, what is read lies below the root of the
repository; and every file below the root can be read.
-/

namespace PeReview

open PeReview.Data PeReview.Data.FilePath

/-- What is read: the files, opened by their resolved paths. -/
def Evidence.targets : Evidence → List String
  | .lines target _ _ => [target]
  | .ranges sections => sections.filterMap fun section_ => section_.map Prod.fst
  | .rows _ context => context.map Prod.snd
  | .files _ => []

def ToolOutput.targets (output : ToolOutput) : List String :=
  (output.evidence.map Evidence.targets).getD []

/-- A git command ends in a code and its output, or cannot be started. -/
structure Git where
  answer : List String → Except Failure GitAnswer
  raises : ∀ arguments raised, answer arguments = .error raised →
    raised.kind = .valueError ∨ raised.kind = .osError

/-- The executor over a tree of files.  A link behind more links than `depth` is in a loop. -/
def treeWorkspace (tree : FileTree) (depth : Nat) (git : Git) (root : FilePath) :
    Workspace where
  root := String.ofList (render root)
  realpath value :=
    if value.toList.contains '\x00' then
      .error { kind := .valueError, text := "embedded null byte" }
    else
      match tree.realpath depth (render root ++ '/' :: value.toList) with
      | none => .error { kind := .runtimeError, text := "Symlink loop" }
      | some place => .ok (String.ofList (render place))
  isFile target := .ok (tree.read depth target.toList).isSome
  git := git.answer
  realpath_raises := by
    intro value raised failed
    split at failed
    · cases failed
      exact Or.inl rfl
    · split at failed
      · cases failed
        exact Or.inr (Or.inr rfl)
      · cases failed
  isFile_raises := by
    intro target raised failed
    cases failed
  git_raises := git.raises

/-- A git that finds nothing. -/
def silentGit : Git where
  answer _ := .ok { returnCode := 1, stdout := "", stderr := "" }
  raises := by
    intro arguments raised failed
    cases failed

section Trees

variable {tree : FileTree} {depth : Nat} {git : Git} {root : FilePath}

/-- A path and its text have the same names. -/
theorem components_eq_parts (value : String) :
    components value = (parts value.toList).map String.ofList := by
  unfold components parts
  rw [List.filter_map]
  congr 1
  apply List.filter_congr
  intro piece _
  have empty : String.ofList piece = "" ↔ piece = [] := String.ofList_eq_empty_iff
  have dot : String.ofList piece = "." ↔ piece = ['.'] := by
    rw [← String.toList_inj, String.toList_ofList]
    rfl
  simp only [Function.comp_apply, ne_eq, empty, dot]

theorem parts_of_pathParts {first second : String} (same : pathParts first = pathParts second) :
    parts (slashed first).toList = parts (slashed second).toList := by
  unfold pathParts at same
  rw [components_eq_parts, components_eq_parts] at same
  exact List.map_injective_iff.mpr (fun _ _ => String.ofList_injective) same

/-- The executor over a tree of files looks a path up by its components. -/
theorem isTree_treeWorkspace (real : tree.Real root)
    (directory : ∀ content, tree.entry root ≠ some (.file content)) :
    (treeWorkspace tree depth git root).IsTree where
  spelled first second same := by
    have names := parts_of_pathParts same
    have null : (slashed first).toList.contains '\x00' =
        (slashed second).toList.contains '\x00' := by
      rw [Bool.eq_iff_iff, List.contains_iff_mem, List.contains_iff_mem,
        mem_parts (by decide) (by decide), mem_parts (by decide) (by decide), names]
    unfold treeWorkspace FileTree.realpath
    dsimp only
    rw [null, parts_append, parts_append, names]
  root path none_ := by
    have names : parts (slashed path).toList = [] := by
      unfold pathParts at none_
      rw [components_eq_parts, List.map_eq_nil_iff] at none_
      exact none_
    have null : ¬(slashed path).toList.contains '\x00' = true := by
      rw [List.contains_iff_mem, mem_parts (by decide) (by decide), names]
      simp
    have found : tree.realpath depth (render root ++ '/' :: (slashed path).toList) =
        some root := by
      have straight : tree.realpath depth (render root) = some root :=
        FileTree.realpath_render real
      unfold FileTree.realpath at straight ⊢
      rw [parts_append, names, List.append_nil, straight]
    unfold treeWorkspace
    dsimp only
    rw [if_neg null, found]
  directory := by
    have unread : tree.read depth (render root) = none := by
      rw [Option.eq_none_iff_forall_ne_some]
      intro content read_
      exact directory content ((FileTree.read_render real).mp read_)
    unfold treeWorkspace
    dsimp only
    rw [String.toList_ofList, unread]
    rfl

/-- A repository with a link to a place below a file. -/
def belowFile : FileTree where
  entry path :=
    if path = [['w']] then some .directory
    else if path = [['w'], ['f']] then some (.file [102])
    else if path = [['w'], ['a']] then some (.link ['f', '/', 'z'])
    else none

/-- A path that ends in a parent can be a file: what is before the parent need not exist. -/
example :
    (treeWorkspace belowFile 4 silentGit [['w']]).look "a/.." = .ok (some "/w/f") := by
  decide +kernel

end Trees

section Containment

variable {tree : FileTree} {depth : Nat} {git : Git} {root : FilePath}

/-- A file is read from where it stands below the root. -/
def ReadBelow (tree : FileTree) (depth : Nat) (root : FilePath) (target : String) : Prop :=
  ∃ place content, target = String.ofList (render place) ∧ root <+: place ∧
    tree.Real place ∧ tree.entry place = some (.file content) ∧
      tree.read depth target.toList = some content

/-- `relative_to` compares names. -/
theorem contains_iff {place : FilePath} (rootReal : tree.Real root) (real : tree.Real place) :
    (treeWorkspace tree depth git root).contains (String.ofList (render place)) = true ↔
      root <+: place := by
  have top : String.ofList (render root) = "/" ↔ root = [] := by
    constructor
    · intro same
      have lists := congrArg String.toList same
      rw [String.toList_ofList] at lists
      rw [← parts_render rootReal.names, lists]
      rfl
    · intro empty
      rw [empty]
      rfl
  have texts : (if String.ofList (render root) = "/" then "/"
      else String.ofList (render root) ++ "/").toList = below root := by
    unfold below
    by_cases isTop : root = []
    · rw [if_pos (top.mpr isTop), if_pos isTop]
      rfl
    · rw [if_neg (mt top.mp isTop), if_neg isTop, String.toList_append,
        String.toList_ofList]
      unfold render
      rw [if_neg isTop]
      rfl
  rw [← below_iff rootReal.names real.names]
  unfold Workspace.contains treeWorkspace
  dsimp only
  rw [texts, Bool.or_eq_true, decide_eq_true_eq, List.isPrefixOf_iff_prefix,
    String.toList_ofList, String.ofList_inj]

theorem resolve_treeWorkspace {path target : String} (real : tree.Real root)
    (resolved : (treeWorkspace tree depth git root).resolve path = .ok target) :
    ∃ place, target = String.ofList (render place) ∧ tree.Real place ∧ root <+: place := by
  unfold Workspace.resolve at resolved
  obtain ⟨found, isFound, checked⟩ := Except.bind_eq_ok.mp resolved
  split at checked
  · rename_i inside
    cases checked
    unfold treeWorkspace at isFound
    dsimp only at isFound
    split at isFound
    · cases isFound
    · split at isFound
      · cases isFound
      · rename_i place known
        cases isFound
        have placeReal := FileTree.real_realpath known
        exact ⟨place, rfl, placeReal, (contains_iff real placeReal).mp inside⟩
  · cases checked

theorem readBelow_of_look {path target : String} (real : tree.Real root)
    (found : (treeWorkspace tree depth git root).look path = .ok (some target)) :
    ReadBelow tree depth root target := by
  unfold Workspace.look at found
  split at found
  · split at found <;> cases found
  · rename_i resolved known
    obtain ⟨file, isFile, opened⟩ := Except.bind_eq_ok.mp found
    obtain ⟨place, isPlace, placeReal, below⟩ := resolve_treeWorkspace real known
    cases file with
    | false => cases opened
    | true =>
        cases opened
        have readable : (tree.read depth target.toList).isSome = true :=
          Except.ok.inj isFile
        obtain ⟨content, read⟩ := Option.isSome_iff_exists.mp readable
        refine ⟨place, content, isPlace, below, placeReal, ?_, read⟩
        rw [isPlace, String.toList_ofList] at read
        exact (FileTree.read_render placeReal).mp read

theorem look_of_contextFile {workspace : Workspace} {path : String} {found : String × String}
    (looked : contextFile workspace path = .ok (some found)) :
    workspace.look found.1 = .ok (some found.2) := by
  unfold contextFile at looked
  split at looked
  · split at looked <;> cases looked
  · rename_i target resolved
    obtain ⟨file, isFile, given⟩ := Except.bind_eq_ok.mp looked
    cases file with
    | false => cases given
    | true =>
        cases given
        unfold Workspace.look
        rw [resolved]
        dsimp only
        rw [isFile]
        rfl

/-- The files around the matches of a search. -/
theorem look_of_searchText {workspace : Workspace} {query : String} {path : Option String}
    {maxResults : Int} {output : ToolOutput}
    (searched : searchText workspace query path maxResults = .ok output) :
    ∀ target ∈ output.targets, ∃ path, workspace.look path = .ok (some target) := by
  unfold searchText at searched
  simp only [Except.bind_eq_ok] at searched
  obtain ⟨_, _, answer, _, matched⟩ := searched
  unfold searchMatches at matched
  split at matched
  · cases matched
    intro target member
    cases member
  · dsimp only at matched
    split at matched
    · cases matched
      intro target member
      cases member
    · obtain ⟨context, computed, given⟩ := Except.bind_eq_ok.mp matched
      cases given
      intro target member
      obtain ⟨found, isFound, rfl⟩ := List.mem_map.mp member
      rw [List.mem_filterMap] at isFound
      obtain ⟨entry, isEntry, rfl⟩ := isFound
      obtain ⟨path, _, looked⟩ := Except.exists_of_mem_mapM computed (some found) isEntry
      exact ⟨found.1, look_of_contextFile looked⟩

/-- Whatever a call reads, it has looked at. -/
theorem look_of_execute {workspace : Workspace} {name : String}
    {arguments : Dict String Json} {output : ToolOutput}
    (executed : execute workspace name arguments = .ok output) :
    ∀ target ∈ output.targets, ∃ path, workspace.look path = .ok (some target) := by
  intro target member
  unfold ToolOutput.targets at member
  have given : evidence (execute workspace name arguments) = output.evidence := by
    rw [executed]
    rfl
  by_cases isRead : name = "read_file"
  · rw [isRead, evidence_read_file] at given
    rw [← given] at member
    split at member
    · rename_i path stop start _ _ _
      unfold linesAt at member
      split at member
      · rename_i found looked
        rw [List.mem_singleton.mp member]
        exact ⟨path, looked⟩
      · cases member
    · cases member
  · by_cases isBatch : name = "batch_read"
    · rw [isBatch, evidence_batch_read] at given
      rw [← given] at member
      split at member
      · unfold rangesAt at member
        split at member
        · rename_i sections computed
          obtain ⟨section_, inside, isTarget⟩ := List.mem_filterMap.mp member
          obtain ⟨item, _, requested⟩ :=
            Except.exists_of_mem_mapM computed section_ inside
          unfold requestedLines at requested
          split at requested
          · cases requested
            cases isTarget
          · rename_i path start stop _
            cases looked : workspace.look path with
            | error raised =>
                rw [looked] at requested
                cases requested
            | ok found =>
                rw [looked] at requested
                cases requested
                cases found with
                | none => cases isTarget
                | some target =>
                    cases isTarget
                    exact ⟨path, looked⟩
        · cases member
      · cases member
    · by_cases isSearch : name = "search_text"
      · rw [isSearch] at executed
        unfold execute at executed
        rw [if_neg (by decide), if_neg (by decide), if_pos rfl] at executed
        split at executed
        · cases executed
          cases member
        · split at executed
          · cases executed
            cases member
          · obtain ⟨maxResults, _, searched⟩ := Except.bind_eq_ok.mp executed
            exact look_of_searchText searched target member
      · unfold execute at executed
        rw [if_neg isRead, if_neg isBatch, if_neg isSearch] at executed
        split at executed
        · split at executed
          · cases executed
            cases member
          · unfold listFiles at executed
            simp only [Except.bind_eq_ok] at executed
            obtain ⟨_, _, answer, _, listed⟩ := executed
            split at listed <;> cases listed <;> cases member
        · cases executed
          cases member

def relative (names : FilePath) : String :=
  String.ofList (encode names).tail

theorem mem_encode {names : FilePath} {char : Char} (member : char ∈ encode names) :
    char = '/' ∨ ∃ name ∈ names, char ∈ name := by
  obtain ⟨name, isName, inside⟩ := List.mem_flatMap.mp member
  rcases List.mem_cons.mp inside with slash | later
  · exact Or.inl slash
  · exact Or.inr ⟨name, isName, later⟩

theorem not_mem_relative {names : FilePath} {char : Char} (notSlash : char ≠ '/')
    (absent : ∀ name ∈ names, char ∉ name) : char ∉ (relative names).toList := by
  intro member
  rw [relative, String.toList_ofList] at member
  rcases mem_encode (List.mem_of_mem_tail member) with slash | ⟨name, isName, inside⟩
  · exact notSlash slash
  · exact absent name isName inside

/-- A relative path is looked up as it is. -/
theorem slashed_relative {names : FilePath} (proper : ∀ name ∈ names, IsName name)
    (plain : ∀ name ∈ names, '\\' ∉ name) : slashed (relative names) = relative names := by
  have unchanged :
      ((relative names).toList.map fun char => if char = '\\' then '/' else char) =
        (relative names).toList := by
    have absent := not_mem_relative (by decide) plain
    calc
      _ = (relative names).toList.map id := by
        apply List.map_congr_left
        intro char member
        rw [if_neg]
        · rfl
        · intro same
          rw [same] at member
          exact absent member
      _ = (relative names).toList := List.map_id _
  have kept : ((relative names).toList.dropWhile fun char => char = '/') =
      (relative names).toList := by
    rw [relative, String.toList_ofList]
    cases names with
    | nil => rfl
    | cons name rest =>
        have isName := proper name List.mem_cons_self
        rw [encode_cons, List.tail_cons]
        cases name with
        | nil => exact absurd rfl isName.notEmpty
        | cons char others =>
            have notSlash : char ≠ '/' := by
              intro same
              rw [same] at isName
              exact isName.unsplit List.mem_cons_self
            rw [List.cons_append, List.dropWhile_cons_of_neg]
            rw [decide_eq_true_eq]
            exact notSlash
  unfold slashed
  rw [unchanged, kept, String.ofList_toList]

theorem parts_relative {names : FilePath} (proper : ∀ name ∈ names, IsName name) :
    parts (relative names).toList = names := by
  rw [relative, String.toList_ofList]
  have read := parts_encode proper
  rcases encode_ends names with empty | ⟨more, same⟩
  · rw [empty] at read ⊢
    exact read
  · rw [same, parts_slash] at read
    rw [same, List.tail_cons]
    exact read

/-- A file below the root is found under its own path. -/
theorem look_relative {names : FilePath} {content : List UInt8}
    (rootReal : tree.Real root) (real : tree.Real (root ++ names))
    (isFile : tree.entry (root ++ names) = some (.file content))
    (plain : ∀ name ∈ names, '\\' ∉ name ∧ '\x00' ∉ name) :
    (treeWorkspace tree depth git root).look (relative names) =
      .ok (some (String.ofList (render (root ++ names)))) := by
  have proper : ∀ name ∈ names, IsName name := fun name member =>
    real.names name (List.mem_append_right root member)
  have unnull : (relative names).toList.contains '\x00' = false := by
    rw [List.contains_eq_mem, decide_eq_false_iff_not]
    exact not_mem_relative (by decide) fun name member => (plain name member).2
  have found : tree.realpath depth (render root ++ '/' :: (relative names).toList) =
      some (root ++ names) := by
    unfold FileTree.realpath
    rw [parts_append, parts_render rootReal.names, parts_relative proper]
    exact FileTree.walk_of_real real
  have resolved : (treeWorkspace tree depth git root).resolve (relative names) =
      .ok (String.ofList (render (root ++ names))) := by
    have inside :=
      (@contains_iff tree depth git root _ rootReal real).mpr (List.prefix_append root names)
    have placed : (treeWorkspace tree depth git root).realpath
        (slashed (relative names)) = .ok (String.ofList (render (root ++ names))) := by
      rw [slashed_relative proper fun name member => (plain name member).1]
      unfold treeWorkspace
      dsimp only
      rw [unnull, if_neg Bool.false_ne_true, found]
    unfold Workspace.resolve
    rw [placed, Except.ok_bind, if_pos inside]
  have readable : (treeWorkspace tree depth git root).isFile
      (String.ofList (render (root ++ names))) = .ok true := by
    unfold treeWorkspace
    dsimp only
    rw [String.toList_ofList, (FileTree.read_render real).mpr isFile]
    rfl
  unfold Workspace.look
  rw [resolved]
  dsimp only
  rw [readable]
  rfl

/-- Whatever a call names, what it reads is a file below the root, found there without
following a link; and a file below the root is read by its own path. -/
theorem tools_read_below_root (rootReal : tree.Real root) :
    (∀ (name : String) (arguments : Dict String Json) (output : ToolOutput),
      execute (treeWorkspace tree depth git root) name arguments = .ok output →
        ∀ target ∈ output.targets, ReadBelow tree depth root target) ∧
    ∀ (names : FilePath) (content : List UInt8), names ≠ [] → tree.Real (root ++ names) →
      tree.entry (root ++ names) = some (.file content) →
        (∀ name ∈ names, '\\' ∉ name ∧ '\x00' ∉ name) →
          evidence (execute (treeWorkspace tree depth git root) "read_file"
              [("path", .string (relative names))]) =
            some (.lines (String.ofList (render (root ++ names))) 1 200) := by
  constructor
  · intro name arguments output executed target member
    obtain ⟨path, looked⟩ := look_of_execute executed target member
    exact readBelow_of_look rootReal looked
  · intro names content notRoot real isFile plain
    have notEmpty : relative names ≠ "" := by
      intro empty
      have read := parts_relative fun name member =>
        real.names name (List.mem_append_right root member)
      rw [empty] at read
      exact notRoot read.symm
    have named : nonEmptyText (Json.field
        [("path", .string (relative names))] "path") = some (relative names) := by
      have isText : nonEmptyText (Json.field
          [("path", .string (relative names))] "path") =
            (some (relative names)).filter fun text => text ≠ "" := rfl
      rw [isText, Option.filter_some, if_pos (decide_eq_true notEmpty)]
    have looked := @look_relative tree depth git root names content rootReal real isFile plain
    rw [evidence_read_file, named]
    change linesAt ((treeWorkspace tree depth git root).look (relative names)) 1 200 = _
    rw [looked]
    rfl

/-- A repository with a file and a link to a file outside. -/
def linkedTree : FileTree where
  entry path :=
    if path = [['w']] then some .directory
    else if path = [['w'], ['a']] then some (.file [97])
    else if path = [['w'], ['x']] then some (.link ['/', 'e'])
    else if path = [['e']] then some (.file [101])
    else none

theorem real_linkedTree : linkedTree.Real [['w'], ['a']] where
  names name member := by
    rcases List.mem_pair.mp member with same | same <;> rw [same] <;>
      exact ⟨by decide, by decide, by decide, by decide⟩
  links first below notRoot target isLink := by
    rcases (@List.prefix_concat_iff _ first [['w']] ['a']).mp below with same | early
    · rw [same] at isLink
      cases isLink
    · rcases (@List.prefix_concat_iff _ first [] ['w']).mp early with same | empty
      · rw [same] at isLink
        cases isLink
      · exact absurd (List.prefix_nil.mp empty) notRoot

theorem tools_read_below_root_linked :
    evidence (execute (treeWorkspace linkedTree 4 silentGit [['w']]) "read_file"
        [("path", .string (relative [['a']]))]) = some (.lines "/w/a" 1 200) ∧
      execute (treeWorkspace linkedTree 4 silentGit [['w']]) "read_file"
          [("path", .string "x")] =
        .error
          { kind := .valueError, text := "repository path escapes workspace: 'x'" } := by
  constructor
  · have below := real_linkedTree.of_prefix (List.prefix_append [['w']] [['a']])
    apply (@tools_read_below_root linkedTree 4 silentGit [['w']] below).2 [['a']] [97]
      (by decide) real_linkedTree rfl
    decide
  · decide +kernel

end Containment

end PeReview
