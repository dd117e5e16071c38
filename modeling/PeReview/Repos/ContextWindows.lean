import Mathlib.Data.List.Pairwise
import Mathlib.Data.List.Sort
import PeReview.Data.Groups
import PeReview.Repos.Tools

/-!
# Context windows

`_merge_context_windows` of `repos/tools.py`: the lines about the matches of a search, with
overlapping windows of one file merged.
-/

namespace PeReview

open PeReview.Data

/-- `_SEARCH_CONTEXT_RADIUS`. -/
def searchContextRadius : Nat := 12

/-- The tuple of a match in `by_path`. -/
structure MatchWindow where
  start : Nat
  stop : Nat
  rank : Nat
  line : Nat
  deriving DecidableEq, Repr

def matchWindow (entry : SearchMatch × Nat) : MatchWindow :=
  { start := max 1 (entry.1.line - searchContextRadius)
    stop := entry.1.line + searchContextRadius
    rank := entry.2
    line := entry.1.line }

/-- The order of `(start, end, rank)`. -/
def MatchWindow.sortsBefore (first second : MatchWindow) : Prop :=
  first.start < second.start ∨
    first.start = second.start ∧
      (first.stop < second.stop ∨
        first.stop = second.stop ∧ first.rank ≤ second.rank)

instance : DecidableRel MatchWindow.sortsBefore := fun first second =>
  inferInstanceAs
    (Decidable
      (first.start < second.start ∨
        first.start = second.start ∧
          (first.stop < second.stop ∨
            first.stop = second.stop ∧ first.rank ≤ second.rank)))

/-- The variables `current_start`, `current_end`, `ranks` and `match_numbers`, with the
path. -/
structure WindowGroup where
  path : String
  start : Nat
  stop : Nat
  ranks : List Nat
  numbers : List Nat
  deriving DecidableEq, Repr

def WindowGroup.single (path : String) (window : MatchWindow) : WindowGroup :=
  { path, start := window.start, stop := window.stop, ranks := [window.rank]
    numbers := [window.line] }

def WindowGroup.add (group : WindowGroup) (window : MatchWindow) : WindowGroup :=
  { group with
    stop := max group.stop window.stop
    ranks := group.ranks ++ [window.rank]
    numbers := group.numbers ++ [window.line] }

/-- `min(ranks)`. -/
def WindowGroup.rank (group : WindowGroup) : Nat :=
  group.ranks.min?.getD 0

def mergeFrom (current : WindowGroup) : List MatchWindow → List WindowGroup
  | [] => [current]
  | window :: rest =>
      if window.start ≤ current.stop then mergeFrom (current.add window) rest
      else current :: mergeFrom (.single current.path window) rest

def mergePath (entry : String × List MatchWindow) : List WindowGroup :=
  match entry.2.insertionSort MatchWindow.sortsBefore with
  | [] => []
  | window :: rest => mergeFrom (.single entry.1 window) rest

/-- A window `_merge_context_windows` returns. -/
structure ContextWindow where
  path : String
  start : Nat
  stop : Nat
  numbers : List Nat
  deriving DecidableEq, Repr

def WindowGroup.window (group : WindowGroup) : ContextWindow :=
  { path := group.path, start := group.start, stop := group.stop
    numbers := group.numbers }

/-- `merged`, before it is sorted. -/
def allGroups (matches_ : List SearchMatch) : List WindowGroup :=
  (Dict.groups (fun entry => entry.1.path) matchWindow matches_.zipIdx).flatMap mergePath

def mergedGroups (matches_ : List SearchMatch) : List WindowGroup :=
  (allGroups matches_).insertionSort fun first second => first.rank ≤ second.rank

/-- `_merge_context_windows`. -/
def mergeContextWindows (matches_ : List SearchMatch) : List ContextWindow :=
  (mergedGroups matches_).map WindowGroup.window

section Merging

variable {path : String} {current group : WindowGroup} {window : MatchWindow}
  {windows rest : List MatchWindow} {line : Nat}

instance : Std.Total MatchWindow.sortsBefore where
  total first second := by
    unfold MatchWindow.sortsBefore
    omega

instance : IsTrans MatchWindow MatchWindow.sortsBefore where
  trans first second third left right := by
    unfold MatchWindow.sortsBefore at *
    omega

def MatchWindow.Has (window : MatchWindow) (line : Nat) : Prop :=
  window.start ≤ line ∧ line ≤ window.stop

/-- A group is what these windows are merged to. -/
structure WindowGroup.Merges (path : String) (group : WindowGroup)
    (windows : List MatchWindow) : Prop where
  path : group.path = path
  filled : windows ≠ []
  ranks : group.ranks = windows.map MatchWindow.rank
  numbers : group.numbers = windows.map MatchWindow.line
  lines : ∀ line, group.start ≤ line ∧ line ≤ group.stop ↔
    ∃ window ∈ windows, window.Has line

theorem single_merges (path : String) (window : MatchWindow) :
    (WindowGroup.single path window).Merges path [window] where
  path := rfl
  filled := List.cons_ne_nil _ _
  ranks := rfl
  numbers := rfl
  lines line := by
    simp [WindowGroup.single, MatchWindow.Has]

/-- A window that begins within a group is merged into it. -/
theorem WindowGroup.Merges.add (merges : group.Merges path windows)
    (after : group.start ≤ window.start) (touches : window.start ≤ group.stop) :
    (group.add window).Merges path (windows ++ [window]) where
  path := merges.path
  filled := List.append_ne_nil_of_right_ne_nil _ (List.cons_ne_nil _ _)
  ranks := by
    rw [List.map_append, ← merges.ranks]
    rfl
  numbers := by
    rw [List.map_append, ← merges.numbers]
    rfl
  lines line := by
    have before := merges.lines line
    have joined : (group.add window).start ≤ line ∧ line ≤ (group.add window).stop ↔
        (group.start ≤ line ∧ line ≤ group.stop) ∨ window.Has line := by
      unfold WindowGroup.add MatchWindow.Has
      dsimp only
      omega
    rw [joined, before]
    constructor
    · intro inside
      rcases inside with ⟨other, member, has⟩ | has
      · exact ⟨other, List.mem_append_left _ member, has⟩
      · exact ⟨window, by simp, has⟩
    · intro inside
      obtain ⟨other, member, has⟩ := inside
      rcases List.mem_append.mp member with old | new
      · exact Or.inl ⟨other, old, has⟩
      · rw [List.mem_singleton] at new
        rw [new] at has
        exact Or.inr has

/-- The groups of a path with the runs of windows they merge; each begins behind the end
of those before it. -/
structure MergedInto (path : String) (windows : List MatchWindow)
    (groups : List WindowGroup) (runs : List (WindowGroup × List MatchWindow)) : Prop where
  groups : runs.map Prod.fst = groups
  windows : runs.flatMap Prod.snd = windows
  merges : ∀ run ∈ runs, run.1.Merges path run.2
  apart : runs.Pairwise fun first second => first.1.stop < second.1.start

def WindowGroup.Disjoint (first second : WindowGroup) : Prop :=
  first.stop < second.start ∨ second.stop < first.start

instance : Std.Symm WindowGroup.Disjoint where
  symm _ _ apart := apart.symm

theorem MergedInto.disjoint {groups : List WindowGroup}
    {runs : List (WindowGroup × List MatchWindow)} (merged : MergedInto path windows groups runs)
    {first second : WindowGroup × List MatchWindow} (isFirst : first ∈ runs)
    (isSecond : second ∈ runs) (different : first ≠ second) :
    first.1.Disjoint second.1 := by
  have symmetric : Std.Symm fun first second : WindowGroup × List MatchWindow =>
      first.1.Disjoint second.1 := ⟨fun _ _ apart => apart.symm⟩
  have apart : runs.Pairwise fun first second => first.1.Disjoint second.1 :=
    merged.apart.imp Or.inl
  exact apart.forall isFirst isSecond different

theorem mergeFrom_spec (merges : current.Merges path windows)
    (ascending : rest.Pairwise fun first second => first.start ≤ second.start)
    (after : ∀ window ∈ rest, current.start ≤ window.start) :
    ∃ runs, MergedInto path (windows ++ rest) (mergeFrom current rest) runs ∧
      ∀ run ∈ runs, current.start ≤ run.1.start := by
  induction rest generalizing current windows with
  | nil =>
      refine ⟨[(current, windows)], ⟨rfl, by simp, ?_, List.pairwise_singleton _ _⟩, ?_⟩
      · intro run member
        rw [List.mem_singleton.mp member]
        exact merges
      · intro run member
        rw [List.mem_singleton.mp member]
  | cons window rest inductionHypothesis =>
      obtain ⟨first, later⟩ := List.pairwise_cons.mp ascending
      rw [List.forall_mem_cons] at after
      by_cases touches : window.start ≤ current.stop
      · have added := merges.add after.1 touches
        obtain ⟨runs, merged, starts⟩ := inductionHypothesis added later after.2
        rw [List.append_assoc] at merged
        rw [mergeFrom, if_pos touches]
        exact ⟨runs, merged, starts⟩
      · have single := single_merges path window
        obtain ⟨runs, merged, starts⟩ := inductionHypothesis single later first
        rw [mergeFrom, if_neg touches, merges.path]
        refine ⟨(current, windows) :: runs, ⟨?_, ?_, ?_, ?_⟩, ?_⟩
        · rw [List.map_cons, merged.groups]
        · rw [List.flatMap_cons, merged.windows]
          rfl
        · exact List.forall_mem_cons.mpr ⟨merges, merged.merges⟩
        · refine List.pairwise_cons.mpr ⟨?_, merged.apart⟩
          intro run member
          have start := starts run member
          unfold WindowGroup.single at start
          dsimp only at start ⊢
          omega
        · refine List.forall_mem_cons.mpr ⟨Nat.le_refl _, ?_⟩
          intro run member
          exact after.1.trans (starts run member)

/-- The groups of a path merge its windows in their order. -/
theorem mergePath_spec (path : String) (windows : List MatchWindow) :
    ∃ runs, MergedInto path (windows.insertionSort MatchWindow.sortsBefore)
      (mergePath (path, windows)) runs := by
  have sorted := List.pairwise_insertionSort MatchWindow.sortsBefore windows
  unfold mergePath
  dsimp only
  cases listed : windows.insertionSort MatchWindow.sortsBefore with
  | nil => exact ⟨[], rfl, rfl, by simp, List.Pairwise.nil⟩
  | cons window rest =>
      rw [listed] at sorted
      have ascending : (window :: rest).Pairwise fun first second =>
          first.start ≤ second.start := by
        apply sorted.imp
        intro first second before
        unfold MatchWindow.sortsBefore at before
        omega
      obtain ⟨first, later⟩ := List.pairwise_cons.mp ascending
      obtain ⟨runs, merged, _⟩ := mergeFrom_spec (single_merges path window) later first
      exact ⟨runs, merged⟩

end Merging

section Groups

variable {matches_ : List SearchMatch} {path : String} {group : WindowGroup}
  {window : MatchWindow} {line : Nat}

def pathWindows (matches_ : List SearchMatch) (path : String) : List MatchWindow :=
  (matches_.zipIdx.filter fun entry => entry.1.path = path).map matchWindow

theorem mem_pathWindows :
    window ∈ pathWindows matches_ path ↔
      ∃ found rank, matches_[rank]? = some found ∧ found.path = path ∧
        window = matchWindow (found, rank) := by
  unfold pathWindows
  rw [List.mem_map]
  constructor
  · intro made
    obtain ⟨⟨found, rank⟩, member, same⟩ := made
    rw [List.mem_filter, List.mem_zipIdx_iff_getElem?, decide_eq_true_eq] at member
    exact ⟨found, rank, member.1, member.2, same.symm⟩
  · intro made
    obtain ⟨found, rank, listed, inFile, same⟩ := made
    refine ⟨(found, rank), ?_, same.symm⟩
    rw [List.mem_filter, List.mem_zipIdx_iff_getElem?, decide_eq_true_eq]
    exact ⟨listed, inFile⟩

theorem path_of_mem_mergePath {entry : String × List MatchWindow}
    (member : group ∈ mergePath entry) : group.path = entry.1 := by
  obtain ⟨runs, merged⟩ := mergePath_spec entry.1 entry.2
  rw [← merged.groups, List.mem_map] at member
  obtain ⟨run, isRun, same⟩ := member
  rw [← same]
  exact (merged.merges run isRun).path

/-- The groups of one file. -/
theorem filter_allGroups (matches_ : List SearchMatch) (path : String) :
    (allGroups matches_).filter (fun group => group.path = path) =
      mergePath (path, pathWindows matches_ path) := by
  have windows := Dict.getD_groups (fun entry : SearchMatch × Nat => entry.1.path)
    matchWindow matches_.zipIdx path
  unfold allGroups
  rw [Dict.filter_flatMap_groups (fun entry made member => path_of_mem_mergePath member)
    path rfl Dict.groups_distinct, windows]
  rfl

theorem has_own_line (own : window ∈ pathWindows matches_ path) : window.Has window.line := by
  obtain ⟨found, rank, _, _, same⟩ := mem_pathWindows.mp own
  have positive := found.positive
  rw [same]
  unfold MatchWindow.Has matchWindow
  dsimp only
  omega

/-- A group merges windows of its file, and every one whose line it covers. -/
theorem group_spec (member : group ∈ allGroups matches_) :
    ∃ run, group.Merges group.path run ∧
      (∀ window ∈ run, window ∈ pathWindows matches_ group.path) ∧
      ∀ window ∈ pathWindows matches_ group.path,
        group.start ≤ window.line → window.line ≤ group.stop → window ∈ run := by
  obtain ⟨runs, merged⟩ := mergePath_spec group.path (pathWindows matches_ group.path)
  have listed : group ∈ runs.map Prod.fst := by
    rw [merged.groups, ← filter_allGroups, List.mem_filter]
    exact ⟨member, decide_eq_true rfl⟩
  obtain ⟨run, isRun, same⟩ := List.mem_map.mp listed
  have merges := merged.merges run isRun
  rw [same] at merges
  have inside (window : MatchWindow) :
      window ∈ pathWindows matches_ group.path ↔ ∃ other ∈ runs, window ∈ other.2 := by
    rw [← List.mem_insertionSort MatchWindow.sortsBefore, ← merged.windows, List.mem_flatMap]
  refine ⟨run.2, merges, ?_, ?_⟩
  · intro window isMerged
    exact (inside window).mpr ⟨run, isRun, isMerged⟩
  · intro window own start stop
    obtain ⟨other, isOther, isMerged⟩ := (inside window).mp own
    have covered := ((merged.merges other isOther).lines window.line).mpr
      ⟨window, isMerged, has_own_line own⟩
    by_contra missing
    have different : run ≠ other := by
      intro equal
      rw [equal] at missing
      exact missing isMerged
    have sides := merged.disjoint isRun isOther different
    simp only [WindowGroup.Disjoint] at sides
    rw [same] at sides
    omega

/-- A number of a group is the line of a match in its file, and in its window. -/
theorem mem_numbers (member : group ∈ allGroups matches_) :
    line ∈ group.numbers ↔
      ∃ found ∈ matches_, found.path = group.path ∧ found.line = line ∧
        group.start ≤ line ∧ line ≤ group.stop := by
  obtain ⟨run, merges, own, all⟩ := group_spec member
  rw [merges.numbers, List.mem_map]
  constructor
  · intro numbered
    obtain ⟨window, isMerged, same⟩ := numbered
    have inFile := own window isMerged
    have covered := (merges.lines window.line).mpr ⟨window, isMerged, has_own_line inFile⟩
    obtain ⟨found, rank, listed, isPath, made⟩ := mem_pathWindows.mp inFile
    rw [same] at covered
    refine ⟨found, List.mem_of_getElem? listed, isPath, ?_, covered⟩
    rw [← same, made]
    rfl
  · intro isLine
    obtain ⟨found, listed, isPath, same, start, stop⟩ := isLine
    obtain ⟨rank, place⟩ := List.getElem?_of_mem listed
    have inFile : matchWindow (found, rank) ∈ pathWindows matches_ group.path :=
      mem_pathWindows.mpr ⟨found, rank, place, isPath, rfl⟩
    have lineSame : (matchWindow (found, rank)).line = line := same
    refine ⟨matchWindow (found, rank), all _ inFile ?_ ?_, lineSame⟩
    · rw [lineSame]
      exact start
    · rw [lineSame]
      exact stop

theorem mem_ranks {rank : Nat} (member : group ∈ allGroups matches_) :
    rank ∈ group.ranks ↔
      ∃ found, matches_[rank]? = some found ∧ found.path = group.path ∧
        found.line ∈ group.numbers := by
  obtain ⟨run, merges, own, all⟩ := group_spec member
  constructor
  · intro ranked
    rw [merges.ranks, List.mem_map] at ranked
    obtain ⟨window, isMerged, same⟩ := ranked
    obtain ⟨found, place, listed, isPath, made⟩ := mem_pathWindows.mp (own window isMerged)
    have numbered : window.line ∈ group.numbers := by
      rw [merges.numbers]
      exact List.mem_map_of_mem isMerged
    rw [made] at same numbered
    have same : place = rank := same
    rw [same] at listed
    exact ⟨found, listed, isPath, numbered⟩
  · intro isMatch
    obtain ⟨found, listed, isPath, numbered⟩ := isMatch
    obtain ⟨_, _, _, _, start, stop⟩ := (mem_numbers member).mp numbered
    have inFile : matchWindow (found, rank) ∈ pathWindows matches_ group.path :=
      mem_pathWindows.mpr ⟨found, rank, listed, isPath, rfl⟩
    have isMerged := all _ inFile start stop
    rw [merges.ranks]
    exact List.mem_map_of_mem isMerged

theorem min_ranks (member : group ∈ allGroups matches_) :
    group.ranks.min? = some group.rank := by
  obtain ⟨run, merges, _, _⟩ := group_spec member
  have filled : group.ranks ≠ [] := by
    rw [merges.ranks]
    simpa using merges.filled
  unfold WindowGroup.rank
  cases least : group.ranks.min? with
  | none => exact absurd (List.min?_eq_none_iff.mp least) filled
  | some rank => rfl

/-- The rank of a group is the place of its first match. -/
theorem rank_eq (member : group ∈ allGroups matches_) :
    group.rank =
      matches_.findIdx fun found =>
        decide (found.path = group.path ∧ found.line ∈ group.numbers) := by
  generalize isIts : (fun found : SearchMatch =>
    decide (found.path = group.path ∧ found.line ∈ group.numbers)) = isIn
  have ranked (rank : Nat) :
      rank ∈ group.ranks ↔ ∃ found, matches_[rank]? = some found ∧ isIn found = true := by
    rw [mem_ranks member, ← isIts]
    simp only [decide_eq_true_eq]
  obtain ⟨isRank, least⟩ := List.min?_eq_some_iff.mp (min_ranks member)
  obtain ⟨found, listed, holds⟩ := (ranked group.rank).mp isRank
  apply Nat.le_antisymm
  · have inside : matches_.findIdx isIn < matches_.length :=
      List.findIdx_lt_length_of_exists ⟨found, List.mem_of_getElem? listed, holds⟩
    apply least
    rw [ranked]
    exact ⟨_, List.getElem?_eq_getElem inside, List.findIdx_getElem⟩
  · by_contra before
    have missed := List.not_of_lt_findIdx (Nat.not_le.mp before)
    obtain ⟨_, place⟩ := List.getElem?_eq_some_iff.mp listed
    rw [place, holds] at missed
    cases missed

/-- Groups of one file do not overlap. -/
theorem allGroups_disjoint (matches_ : List SearchMatch) :
    (allGroups matches_).Pairwise fun first second =>
      first.path = second.path → first.Disjoint second := by
  unfold allGroups
  rw [List.pairwise_flatMap]
  constructor
  · intro entry _
    obtain ⟨runs, merged⟩ := mergePath_spec entry.1 entry.2
    have ordered : mergePath entry = runs.map Prod.fst := merged.groups.symm
    rw [ordered, List.pairwise_map]
    apply merged.apart.imp
    intro first second before _
    exact Or.inl before
  · have distinct : (Dict.groups (fun entry : SearchMatch × Nat => entry.1.path) matchWindow
        matches_.zipIdx).Distinct := Dict.groups_distinct
    unfold Dict.Distinct at distinct
    rw [List.Nodup, List.pairwise_map] at distinct
    apply distinct.imp
    intro first second different one isOne other isOther same
    rw [path_of_mem_mergePath isOne, path_of_mem_mergePath isOther] at same
    exact absurd same different

/-- The matches of a file, by the groups they are merged to. -/
theorem numbers_perm (matches_ : List SearchMatch) (path : String) :
    (((allGroups matches_).filter fun group => group.path = path).flatMap
        WindowGroup.numbers).Perm
      ((matches_.filter fun found => found.path = path).map SearchMatch.line) := by
  obtain ⟨runs, merged⟩ := mergePath_spec path (pathWindows matches_ path)
  have ofRuns : (runs.map Prod.fst).flatMap WindowGroup.numbers =
      (runs.flatMap Prod.snd).map MatchWindow.line := by
    rw [List.flatMap_map, List.map_flatMap]
    apply List.flatMap_congr
    intro run member
    exact (merged.merges run member).numbers
  have ofMatches : (pathWindows matches_ path).map MatchWindow.line =
      (matches_.filter fun found => found.path = path).map SearchMatch.line := by
    have listed : matches_ = matches_.zipIdx.map Prod.fst :=
      (List.zipIdx_map_fst 0 matches_).symm
    conv_rhs => rw [listed, List.filter_map, List.map_map]
    unfold pathWindows
    rw [List.map_map]
    rfl
  rw [filter_allGroups, ← merged.groups, ofRuns, merged.windows, ← ofMatches]
  exact (List.perm_insertionSort MatchWindow.sortsBefore _).map _

end Groups

/-- The place of the first match of a window. -/
def ContextWindow.bestRank (matches_ : List SearchMatch) (window : ContextWindow) : Nat :=
  matches_.findIdx fun found =>
    decide (found.path = window.path ∧ found.line ∈ window.numbers)

def ContextWindow.Has (window : ContextWindow) (path : String) (line : Nat) : Prop :=
  window.path = path ∧ window.start ≤ line ∧ line ≤ window.stop

/-- The windows are the merged surroundings of the matches. -/
structure WindowsExact (matches_ : List SearchMatch) (windows : List ContextWindow) :
    Prop where
  disjoint : windows.Pairwise fun first second =>
    first.path = second.path → first.stop < second.start ∨ second.stop < first.start
  union : ∀ path line, (∃ window ∈ windows, window.Has path line) ↔
    ∃ found ∈ matches_, found.path = path ∧
      max 1 (found.line - searchContextRadius) ≤ line ∧
        line ≤ found.line + searchContextRadius
  unique : ∀ found ∈ matches_, ∃! window, window ∈ windows ∧ window.path = found.path ∧
    found.line ∈ window.numbers
  contains : ∀ window ∈ windows, ∀ line ∈ window.numbers, window.Has window.path line
  numbers : ∀ path,
    ((windows.filter fun window => window.path = path).flatMap ContextWindow.numbers).Perm
      ((matches_.filter fun found => found.path = path).map SearchMatch.line)
  ordered : windows.Pairwise fun first second =>
    first.bestRank matches_ < second.bestRank matches_

section Windows

variable {matches_ : List SearchMatch} {group : WindowGroup} {window : ContextWindow}

theorem mem_mergedGroups : group ∈ mergedGroups matches_ ↔ group ∈ allGroups matches_ :=
  List.mem_insertionSort _

theorem mem_mergeContextWindows :
    window ∈ mergeContextWindows matches_ ↔
      ∃ group ∈ allGroups matches_, group.window = window := by
  unfold mergeContextWindows
  rw [List.mem_map]
  simp only [mem_mergedGroups]

theorem mergedGroups_disjoint (matches_ : List SearchMatch) :
    (mergedGroups matches_).Pairwise fun first second =>
      first.path = second.path → first.Disjoint second := by
  have symmetric : ∀ {first second : WindowGroup},
      (first.path = second.path → first.Disjoint second) →
        second.path = first.path → second.Disjoint first :=
    fun apart same => (apart same.symm).symm
  have perm := List.perm_insertionSort
    (fun first second : WindowGroup => first.rank ≤ second.rank) (allGroups matches_)
  exact (perm.pairwise_iff symmetric).mpr (allGroups_disjoint matches_)

/-- A line is in a group of a file if it is near a match. -/
theorem in_group_iff (matches_ : List SearchMatch) (path : String) (line : Nat) :
    (∃ group ∈ allGroups matches_, group.window.Has path line) ↔
      ∃ found ∈ matches_, found.path = path ∧
        max 1 (found.line - searchContextRadius) ≤ line ∧
          line ≤ found.line + searchContextRadius := by
  constructor
  · intro inside
    obtain ⟨group, member, same, start, stop⟩ := inside
    obtain ⟨run, merges, own, _⟩ := group_spec member
    obtain ⟨window, isMerged, has⟩ := (merges.lines line).mp ⟨start, stop⟩
    obtain ⟨found, rank, listed, isPath, made⟩ := mem_pathWindows.mp (own window isMerged)
    rw [made] at has
    exact ⟨found, List.mem_of_getElem? listed, isPath.trans same, has⟩
  · intro near
    obtain ⟨found, isMatch, isPath, start, stop⟩ := near
    obtain ⟨rank, listed⟩ := List.getElem?_of_mem isMatch
    have inFile : matchWindow (found, rank) ∈ pathWindows matches_ path :=
      mem_pathWindows.mpr ⟨found, rank, listed, isPath, rfl⟩
    obtain ⟨runs, merged⟩ := mergePath_spec path (pathWindows matches_ path)
    rw [← List.mem_insertionSort MatchWindow.sortsBefore, ← merged.windows,
      List.mem_flatMap] at inFile
    obtain ⟨run, isRun, isMerged⟩ := inFile
    have merges := merged.merges run isRun
    have member : run.1 ∈ (allGroups matches_).filter fun group => group.path = path := by
      rw [filter_allGroups, ← merged.groups]
      exact List.mem_map_of_mem isRun
    refine ⟨run.1, (List.mem_filter.mp member).1, merges.path, ?_⟩
    exact (merges.lines line).mpr ⟨_, isMerged, start, stop⟩

/-- Groups of one file with a common line are one. -/
theorem group_eq_of_common {first second : WindowGroup} {path : String} {line : Nat}
    (isFirst : first ∈ allGroups matches_) (isSecond : second ∈ allGroups matches_)
    (inFirst : first.window.Has path line) (inSecond : second.window.Has path line) :
    first = second := by
  have symmetric : Std.Symm fun first second : WindowGroup =>
      first.path = second.path → first.Disjoint second :=
    ⟨fun _ _ apart same => (apart same.symm).symm⟩
  by_contra different
  have apart := (allGroups_disjoint matches_).forall isFirst isSecond different
    (inFirst.1.trans inSecond.1.symm)
  have low := inFirst.2
  have high := inSecond.2
  unfold WindowGroup.Disjoint at apart
  unfold WindowGroup.window at low high
  dsimp only at low high
  omega

theorem rank_mem_ranks (member : group ∈ allGroups matches_) : group.rank ∈ group.ranks :=
  List.min?_mem (min_ranks member)

/-- No two groups have the rank of one match. -/
theorem rank_ne {first second : WindowGroup} (isFirst : first ∈ allGroups matches_)
    (isSecond : second ∈ allGroups matches_)
    (apart : first.path = second.path → first.Disjoint second) :
    first.rank ≠ second.rank := by
  intro same
  obtain ⟨found, listed, isPath, numbered⟩ := (mem_ranks isFirst).mp (rank_mem_ranks isFirst)
  obtain ⟨other, listedToo, isPathToo, numberedToo⟩ :=
    (mem_ranks isSecond).mp (rank_mem_ranks isSecond)
  rw [same, listedToo, Option.some_inj] at listed
  rw [listed] at isPathToo numberedToo
  obtain ⟨_, _, _, _, inFirst⟩ := (mem_numbers isFirst).mp numbered
  obtain ⟨_, _, _, _, inSecond⟩ := (mem_numbers isSecond).mp numberedToo
  have apart := apart (isPath.symm.trans isPathToo)
  unfold WindowGroup.Disjoint at apart
  omega

theorem bestRank_window (member : group ∈ allGroups matches_) :
    group.window.bestRank matches_ = group.rank :=
  (rank_eq member).symm

theorem merge_context_windows_exact (matches_ : List SearchMatch) :
    WindowsExact matches_ (mergeContextWindows matches_) where
  disjoint := by
    unfold mergeContextWindows
    rw [List.pairwise_map]
    exact mergedGroups_disjoint matches_
  union path line := by
    rw [← in_group_iff]
    simp only [mem_mergeContextWindows]
    constructor
    · intro inside
      obtain ⟨window, ⟨group, member, same⟩, has⟩ := inside
      exact ⟨group, member, same ▸ has⟩
    · intro inside
      obtain ⟨group, member, has⟩ := inside
      exact ⟨group.window, ⟨group, member, rfl⟩, has⟩
  unique found isMatch := by
    have own := found.positive
    obtain ⟨group, member, has⟩ := (in_group_iff matches_ found.path found.line).mpr
      ⟨found, isMatch, rfl, by omega, by omega⟩
    have numbered : found.line ∈ group.numbers :=
      (mem_numbers member).mpr ⟨found, isMatch, has.1.symm, rfl, has.2⟩
    refine ⟨group.window, ⟨mem_mergeContextWindows.mpr ⟨group, member, rfl⟩, has.1, numbered⟩, ?_⟩
    intro other its
    obtain ⟨isWindow, isPath, isLine⟩ := its
    obtain ⟨second, isSecond, same⟩ := mem_mergeContextWindows.mp isWindow
    rw [← same] at isPath isLine ⊢
    obtain ⟨_, _, _, _, covered⟩ := (mem_numbers isSecond).mp isLine
    rw [group_eq_of_common isSecond member ⟨isPath, covered⟩ has]
  contains window isWindow line isLine := by
    obtain ⟨group, member, same⟩ := mem_mergeContextWindows.mp isWindow
    rw [← same] at isLine ⊢
    obtain ⟨_, _, _, _, covered⟩ := (mem_numbers member).mp isLine
    exact ⟨rfl, covered⟩
  numbers path := by
    have perm := List.perm_insertionSort
      (fun first second : WindowGroup => first.rank ≤ second.rank) (allGroups matches_)
    unfold mergeContextWindows
    rw [List.filter_map, List.flatMap_map]
    apply ((perm.filter _).flatMap_right _).trans
    exact numbers_perm matches_ path
  ordered := by
    have sorted : (mergedGroups matches_).Pairwise fun first second =>
        first.rank ≤ second.rank := List.pairwise_insertionSort _ _
    unfold mergeContextWindows
    rw [List.pairwise_map]
    apply (sorted.and (mergedGroups_disjoint matches_)).imp_of_mem
    intro first second isFirst isSecond both
    rw [mem_mergedGroups] at isFirst isSecond
    rw [bestRank_window isFirst, bestRank_window isSecond]
    exact Nat.lt_of_le_of_ne both.1 (rank_ne isFirst isSecond both.2)

end Windows

end PeReview
