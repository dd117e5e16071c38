import PeReview.Review.DiffSections

/-!
# The paths of the chunks

When the paths of every chunk of a git diff are those of the sections it has text of.
-/

namespace PeReview

open PeReview.Data

namespace Chunking

/-- A chunk contains text of a section: their places in the diff overlap. -/
def Contains (chunk : Nat × DiffChunk) (part : Nat × GitSection) : Prop :=
  Overlaps (chunk.1, chunk.2.text.length) (part.1, part.2.text.length)

def placedChunks (chunks : List DiffChunk) : List (Nat × DiffChunk) :=
  placed (fun chunk => chunk.text.length) 0 chunks

def placedSections (sections : List GitSection) : List (Nat × GitSection) :=
  placed (fun part => part.text.length) 0 sections

/-- The paths of every chunk include those of the sections it contains text of. -/
def Covers (chunks : List DiffChunk) (sections : List GitSection) : Prop :=
  ∀ chunk ∈ placedChunks chunks, ∀ part ∈ placedSections sections,
    Contains chunk part → part.2.path ∈ chunk.2.paths

/-- The paths of the chunks are those of the sections. -/
def SamePaths (chunks : List DiffChunk) (sections : List GitSection) : Prop :=
  ∀ path, (∃ chunk ∈ chunks, path ∈ chunk.paths) ↔ ∃ part ∈ sections, part.path = path

def SameLength (chunks : List DiffChunk) (sections : List GitSection) : Prop :=
  total (fun chunk => chunk.text.length) chunks =
    total (fun part => part.text.length) sections

section Covers

variable {chunks pieces : List DiffChunk} {sections : List GitSection}
  {part : GitSection} {chunk wider : DiffChunk}

/-- Chunks of the next section alone are added. -/
theorem Covers.extend (covers : Covers chunks sections)
    (same : SameLength chunks sections) (named : ∀ piece ∈ pieces, part.path ∈ piece.paths) :
    Covers (chunks ++ pieces) (sections ++ [part]) := by
  unfold SameLength at same
  intro chunk chunkPlaced other otherPlaced contains
  unfold Contains Overlaps at contains
  unfold placedChunks at chunkPlaced
  unfold placedSections at otherPlaced
  rw [placed_append, List.mem_append, Nat.zero_add] at chunkPlaced
  rw [placed_concat, List.mem_append, List.mem_singleton, Nat.zero_add] at otherPlaced
  rcases chunkPlaced with oldChunk | newChunk
  · rcases otherPlaced with oldPart | newPart
    · exact covers chunk oldChunk other oldPart contains
    · have within := placed_within oldChunk
      rw [newPart] at contains
      dsimp only at contains
      omega
  · rcases otherPlaced with oldPart | newPart
    · have after := placed_within newChunk
      have within := placed_within oldPart
      dsimp only at contains after within
      omega
    · rw [newPart]
      exact named chunk.2 (mem_of_mem_placed newChunk)

/-- The last chunk takes in the next section. -/
theorem Covers.widen (covers : Covers (chunks ++ [chunk]) sections)
    (same : SameLength (chunks ++ [chunk]) sections) (nonempty : chunk.text ≠ [])
    (text : wider.text = chunk.text ++ part.text) (kept : chunk.paths ⊆ wider.paths)
    (named : part.path ∈ wider.paths) :
    Covers (chunks ++ [wider]) (sections ++ [part]) := by
  have filled := List.length_pos_of_ne_nil nonempty
  unfold SameLength at same
  rw [total_append, total_cons, total_nil] at same
  intro place placePlaced other otherPlaced contains
  unfold Contains Overlaps at contains
  unfold placedChunks at placePlaced
  unfold placedSections at otherPlaced
  rw [placed_concat, List.mem_append, List.mem_singleton, Nat.zero_add] at placePlaced
  rw [placed_concat, List.mem_append, List.mem_singleton, Nat.zero_add] at otherPlaced
  unfold Covers placedChunks at covers
  rw [placed_concat, Nat.zero_add] at covers
  rcases placePlaced with old | last
  · rcases otherPlaced with oldPart | newPart
    · exact covers place (List.mem_append_left _ old) other oldPart contains
    · have within := placed_within old
      rw [newPart] at contains
      dsimp only at contains within
      omega
  · rw [last]
    rcases otherPlaced with oldPart | newPart
    · apply kept
      apply covers (_, chunk) (List.mem_append_right _ List.mem_cons_self) other oldPart
      have within := placed_within oldPart
      have some_ := other.2.text_pos
      rw [last] at contains
      unfold Contains Overlaps
      rw [text, List.length_append] at contains
      dsimp only at contains within ⊢
      omega
    · rw [newPart]
      exact named

end Covers

/-- What a packing of the first sections stands for. -/
structure Packed (packing : Packing) (sections : List GitSection) : Prop where
  length : SameLength packing.flush.chunks sections
  covers : Covers packing.flush.chunks sections
  paths : ∀ path, (∃ chunk ∈ packing.flush.chunks, path ∈ chunk.paths) ↔
    ∃ part ∈ sections, path ∈ Chunking.paths part.text
  empty : packing.pending = [] → packing.pendingPaths = []

section Packed

variable {packing : Packing} {sections : List GitSection} {part : GitSection}

theorem mem_paths_section {path : String} :
    path ∈ Chunking.paths part.text ↔ path = part.path ∨ path ∈ part.named := by
  rw [paths_section]
  by_cases unnamed : part.named = []
  · rw [if_neg (not_not.mpr unnamed), unnamed]
    simp
  · rw [if_pos unnamed, List.mem_eraseDups]
    apply Iff.symm
    apply or_iff_right_of_imp
    intro same
    rw [same]
    unfold GitSection.named at unnamed ⊢
    split at unnamed
    · exact absurd rfl unnamed
    · rename_i filled
      rw [if_neg filled]
      exact List.mem_cons_self

theorem flush_of_pending (some_ : packing.pending ≠ []) :
    packing.flush.chunks =
      packing.chunks ++
        [{ text := packing.pending, paths := packing.pendingPaths.eraseDups }] := by
  unfold Packing.flush
  rw [if_neg some_]

theorem flush_of_empty (empty : packing.pending = []) : packing.flush = packing := by
  unfold Packing.flush
  rw [if_pos empty]

theorem Packed.flush_pendingPaths (packed : Packed packing sections) :
    packing.flush.pendingPaths = [] := by
  by_cases nothing : packing.pending = []
  · rw [flush_of_empty nothing]
    exact packed.empty nothing
  · unfold Packing.flush
    rw [if_neg nothing]

/-- Chunks of the next section alone are added to what was flushed. -/
theorem Packed.extend {target : Packing} {pieces : List DiffChunk}
    (packed : Packed packing sections)
    (chunks : target.flush.chunks = packing.flush.chunks ++ pieces)
    (text : pieces.flatMap DiffChunk.text = part.text)
    (named : ∀ piece ∈ pieces, ∀ path,
      path ∈ piece.paths ↔ path ∈ Chunking.paths part.text)
    (empty : target.pending = [] → target.pendingPaths = []) :
    Packed target (sections ++ [part]) := by
  have length : total (fun chunk : DiffChunk => chunk.text.length) pieces =
      part.text.length := by
    rw [← text, List.length_flatMap]
    rfl
  have same := packed.length
  unfold SameLength at same
  constructor
  · rw [chunks]
    unfold SameLength
    rw [total_append, total_append, same, length, total_cons, total_nil, Nat.add_zero]
  · rw [chunks]
    apply packed.covers.extend packed.length
    intro piece member
    rw [named piece member]
    exact mem_paths_section.mpr (Or.inl rfl)
  · intro path
    have earlier := packed.paths path
    have some_ : pieces ≠ [] := by
      intro nothing
      rw [nothing] at text
      have filled := part.text_pos
      rw [← text] at filled
      exact absurd filled (Nat.lt_irrefl 0)
    have later : (∃ piece ∈ pieces, path ∈ piece.paths) ↔
        path ∈ Chunking.paths part.text := by
      constructor
      · intro found
        obtain ⟨piece, member, isPath⟩ := found
        exact (named piece member path).mp isPath
      · intro isPath
        obtain ⟨piece, member⟩ := List.exists_mem_of_ne_nil pieces some_
        exact ⟨piece, member, (named piece member path).mpr isPath⟩
    rw [chunks]
    simp only [List.mem_append, List.mem_singleton, or_and_right, exists_or, earlier, later,
      exists_eq_left]
  · exact empty

/-- A packing that holds the next section and nothing else unflushed. -/
theorem Packed.renew (packed : Packed packing sections) (part : GitSection) :
    Packed
      { chunks := packing.flush.chunks
        pending := packing.flush.pending ++ part.text
        pendingPaths := packing.flush.pendingPaths ++ Chunking.paths part.text }
      (sections ++ [part]) := by
  have filled := List.ne_nil_of_length_pos part.text_pos
  have text : packing.flush.pending ++ part.text = part.text := by
    rw [packing.flush_pending, List.nil_append]
  have paths : packing.flush.pendingPaths ++ Chunking.paths part.text =
      Chunking.paths part.text := by
    rw [packed.flush_pendingPaths, List.nil_append]
  rw [text, paths]
  let renewed : Packing :=
    { chunks := packing.flush.chunks
      pending := part.text
      pendingPaths := Chunking.paths part.text }
  have chunks : renewed.flush.chunks = packing.flush.chunks ++
      [{ text := part.text, paths := (Chunking.paths part.text).eraseDups }] :=
    flush_of_pending filled
  apply packed.extend chunks
  · simp
  · intro piece member path
    rw [List.mem_singleton.mp member]
    exact List.mem_eraseDups
  · exact fun nothing => absurd nothing filled

/-- A packing that takes the next section to what is unflushed. -/
theorem Packed.join (packed : Packed packing sections) (some_ : packing.pending ≠ [])
    (part : GitSection) :
    Packed
      { packing with
        pending := packing.pending ++ part.text
        pendingPaths := packing.pendingPaths ++ Chunking.paths part.text }
      (sections ++ [part]) := by
  let joined : Packing :=
    { packing with
      pending := packing.pending ++ part.text
      pendingPaths := packing.pendingPaths ++ Chunking.paths part.text }
  have filled : joined.pending ≠ [] := by
    intro nothing
    exact some_ (List.append_eq_nil_iff.mp nothing).1
  have length := packed.length
  have covers := packed.covers
  have paths := packed.paths
  rw [flush_of_pending some_] at length covers paths
  constructor
  · rw [flush_of_pending filled]
    unfold SameLength at length ⊢
    simp only [total_append, total_cons, total_nil, joined, List.length_append] at length ⊢
    omega
  · rw [flush_of_pending filled]
    apply covers.widen length some_ rfl
    · intro path member
      rw [List.mem_eraseDups] at member ⊢
      exact List.mem_append_left _ member
    · rw [List.mem_eraseDups]
      exact List.mem_append_right _ (mem_paths_section.mpr (Or.inl rfl))
  · intro path
    have earlier := paths path
    rw [flush_of_pending filled]
    simp only [List.mem_append, List.mem_singleton, or_and_right, exists_or,
      exists_eq_left, List.mem_eraseDups, joined] at earlier ⊢
    rw [← earlier, or_assoc]
  · exact fun nothing => absurd nothing filled

theorem Packed.add {maxChars : Nat} (room : 1 ≤ maxChars)
    (packed : Packed packing sections) (part : GitSection) :
    Packed (packing.add maxChars part.text) (sections ++ [part]) := by
  unfold Packing.add
  dsimp only
  split
  · -- The section is cut, and every piece has its paths.
    let pieces := (splitText part.text maxChars).map fun text =>
      ({ text, paths := Chunking.paths part.text } : DiffChunk)
    let cut : Packing :=
      { packing.flush with chunks := packing.flush.chunks ++ pieces }
    have empty : cut.pending = [] := packing.flush_pending
    have chunks : cut.flush.chunks = packing.flush.chunks ++ pieces := by
      rw [flush_of_empty empty]
    apply packed.extend chunks
    · unfold pieces
      rw [List.flatMap_map, List.flatMap_id', splitText_flatten room]
    · intro piece member path
      obtain ⟨text, _, same⟩ := List.mem_map.mp member
      rw [← same]
    · exact fun _ => packed.flush_pendingPaths
  · split
    · exact packed.renew part
    · by_cases nothing : packing.pending = []
      · have renewed := packed.renew part
        rw [flush_of_empty nothing] at renewed
        exact renewed
      · exact packed.join nothing part

theorem packed_empty : Packed {} [] := by
  constructor
  · rfl
  · intro chunk member
    cases member
  · simp [Packing.flush]
  · exact fun _ => rfl

/-- Every section of a diff is packed. -/
theorem Packed.foldl {maxChars : Nat} (room : 1 ≤ maxChars)
    (packed : Packed packing sections) (rest : List GitSection) :
    Packed ((rest.map GitSection.text).foldl (Packing.add maxChars) packing)
      (sections ++ rest) := by
  induction rest generalizing packing sections with
  | nil =>
      rw [List.append_nil]
      exact packed
  | cons part rest inductionHypothesis =>
      have later := inductionHypothesis (packed.add room part)
      rw [List.append_assoc, List.singleton_append] at later
      exact later

end Packed

/-- The paths of every chunk include those of the sections it has text of, and
together they are the paths of the sections. -/
structure PathsAgree (chunks : List DiffChunk) (sections : List GitSection) : Prop where
  covers : Covers chunks sections
  same : SamePaths chunks sections

/-- No added line reads `++ b/` and another path than those of the sections. -/
def NoImitation (sections : List GitSection) : Prop :=
  ∀ part ∈ sections, ∀ name ∈ namedPaths part.hunks,
    ∃ other ∈ sections, other.path = name

/-- The `+++ b/` lines name every section, or there are none and one path. -/
def WholeNamed (sections : List GitSection) : Prop :=
  (∀ part ∈ sections, part.path ∈ sections.flatMap GitSection.named) ∨
    sections.flatMap GitSection.named = [] ∧
      ∀ part ∈ sections, ∀ other ∈ sections, part.path = other.path

section Agreement

variable {sections : List GitSection}

theorem mem_named {part : GitSection} {name : String} :
    name ∈ part.named →
      name = part.path ∨ name ∈ namedPaths part.hunks := by
  unfold GitSection.named
  split
  · intro member
    cases member
  · exact List.mem_cons.mp

theorem namedPaths_deleted {part : GitSection} (deleted : part.sides = .deleted) :
    namedPaths part.hunks = [] := by
  apply namedPaths_eq_nil
  exact fun line member => newPathOf_of_head (part.onlyRemoved deleted line member)

theorem named_of_hunks {part : GitSection} {name : String}
    (member : name ∈ namedPaths part.hunks) : name ∈ part.named := by
  unfold GitSection.named
  split
  · rename_i unnamed
    rcases unnamed with empty | deleted
    · rw [empty] at member
      cases member
    · rw [namedPaths_deleted deleted] at member
      cases member
  · exact List.mem_cons_of_mem _ member

theorem noImitation_iff :
    NoImitation sections ↔
      ∀ part ∈ sections, ∀ name ∈ part.named, ∃ other ∈ sections, other.path = name := by
  constructor
  · intro plain part member name isNamed
    rcases mem_named isNamed with own | imitated
    · exact ⟨part, member, own.symm⟩
    · exact plain part member name imitated
  · intro known part member name imitated
    exact known part member name (named_of_hunks imitated)

/-- A diff that is cut at its sections agrees unless a line imitates a path. -/
theorem packed_agrees {packing : Packing} (packed : Packed packing sections) :
    PathsAgree packing.flush.chunks sections ↔ NoImitation sections := by
  have paths := packed.paths
  simp only [mem_paths_section] at paths
  rw [noImitation_iff]
  constructor
  · intro agrees part member name isNamed
    rw [← agrees.same name, paths name]
    exact ⟨part, member, Or.inr isNamed⟩
  · intro known
    refine ⟨packed.covers, fun path => ?_⟩
    rw [paths path]
    constructor
    · intro found
      obtain ⟨part, member, own | isNamed⟩ := found
      · exact ⟨part, member, own.symm⟩
      · exact known part member path isNamed
    · intro found
      obtain ⟨part, member, same⟩ := found
      exact ⟨part, member, Or.inl same.symm⟩

theorem length_renderSections (sections : List GitSection) :
    (renderSections sections).length =
      total (fun part => part.text.length) sections := by
  unfold renderSections
  rw [List.length_flatMap]
  rfl

/-- One chunk has text of every section. -/
theorem covers_whole {paths : List String} :
    Covers [{ text := renderSections sections, paths }] sections ↔
      ∀ part ∈ sections, part.path ∈ paths := by
  constructor
  · intro covers part member
    obtain ⟨start, isPlaced⟩ :
        ∃ position, (position, part) ∈ placed (fun part => part.text.length) 0 sections :=
      exists_placed member 0
    have within := placed_within isPlaced
    apply covers (0, _) List.mem_cons_self (start, part) isPlaced
    have filled := part.text_pos
    unfold Contains Overlaps
    rw [length_renderSections]
    dsimp only at within ⊢
    omega
  · intro known chunk member part isPlaced _
    rw [List.mem_singleton.mp member]
    exact known part.2 (mem_of_mem_placed isPlaced)

/-- A diff in one chunk agrees when these are the paths of its sections. -/
theorem agrees_whole {paths : List String} :
    PathsAgree [{ text := renderSections sections, paths }] sections ↔
      (∀ part ∈ sections, part.path ∈ paths) ∧
        ∀ path ∈ paths, ∃ part ∈ sections, part.path = path := by
  constructor
  · intro agrees
    refine ⟨covers_whole.mp agrees.covers, fun path member => ?_⟩
    rw [← agrees.same path]
    exact ⟨_, List.mem_cons_self, member⟩
  · intro same
    refine ⟨covers_whole.mpr same.1, fun path => ⟨?_, ?_⟩⟩
    · intro found
      obtain ⟨chunk, member, isPath⟩ := found
      rw [List.mem_singleton.mp member] at isPath
      exact same.2 path isPath
    · intro found
      obtain ⟨part, member, isPath⟩ := found
      rw [← isPath]
      exact ⟨_, List.mem_cons_self, same.1 part member⟩

/-- The paths of a diff that is not cut. -/
theorem whole_agrees (part : GitSection) (rest : List GitSection) :
    PathsAgree
        [{ text := renderSections (part :: rest)
           paths := paths (renderSections (part :: rest)) }]
        (part :: rest) ↔
      NoImitation (part :: rest) ∧ WholeNamed (part :: rest) := by
  rw [agrees_whole, noImitation_iff, paths_sections]
  unfold WholeNamed
  by_cases unnamed : (part :: rest).flatMap GitSection.named = []
  · rw [if_neg (not_not.mpr unnamed), unnamed]
    have none_ : ∀ other ∈ part :: rest, other.named = [] :=
      List.flatMap_eq_nil_iff.mp unnamed
    constructor
    · intro same
      refine ⟨fun other member name isNamed => ?_, Or.inr ⟨rfl, ?_⟩⟩
      · rw [none_ other member] at isNamed
        cases isNamed
      · intro first firstMember second secondMember
        have one := List.mem_singleton.mp (same.1 first firstMember)
        have two := List.mem_singleton.mp (same.1 second secondMember)
        rw [one, two]
    · intro known
      have same : ∀ first ∈ part :: rest, first.path = part.path := by
        intro first member
        rcases known.2 with named | ⟨_, equal⟩
        · exact absurd (named first member) List.not_mem_nil
        · exact equal first member part List.mem_cons_self
      refine ⟨fun first member => List.mem_singleton.mpr (same first member), ?_⟩
      intro path member
      exact ⟨part, List.mem_cons_self, (List.mem_singleton.mp member).symm⟩
  · rw [if_pos unnamed]
    simp only [List.mem_eraseDups, unnamed, false_and, or_false]
    rw [and_comm]
    apply and_congr_left
    intro _
    constructor
    · intro known other member name isNamed
      exact known name (List.mem_flatMap.mpr ⟨other, member, isNamed⟩)
    · intro known name isNamed
      obtain ⟨other, member, own⟩ := List.mem_flatMap.mp isNamed
      exact known other member name own

/-- A diff that is longer than a chunk is cut at its sections. -/
theorem chunkDiff_cut (part : GitSection) (rest : List GitSection) {maxChars : Nat}
    (long : maxChars < (renderSections (part :: rest)).length) :
    chunkDiff (renderSections (part :: rest)) maxChars =
      (((part :: rest).map GitSection.text).foldl (Packing.add maxChars) {}).flush.chunks := by
  have nonempty : renderSections (part :: rest) ≠ [] := by
    intro empty
    rw [empty] at long
    exact absurd long (Nat.not_lt_zero _)
  have starts := headerStarts_sections (part :: rest) 0
  have cut := slices_sections part rest
  rw [placed, List.map_cons] at starts
  unfold chunkDiff
  rw [if_neg nonempty, if_neg (Nat.not_le.mpr long)]
  rw [starts] at cut ⊢
  dsimp only at cut ⊢
  rw [cut]

end Agreement

/-- The paths of the chunks agree with the sections if and only if no line imitates
another path and a diff that is not cut has a `+++ b/` line for every section. -/
theorem chunk_paths_agree_iff (sections : List GitSection) {maxChars : Nat}
    (room : 1 ≤ maxChars) :
    PathsAgree (chunkDiff (renderSections sections) maxChars) sections ↔
      NoImitation sections ∧
        (maxChars < (renderSections sections).length ∨ WholeNamed sections) := by
  cases sections with
  | nil =>
      apply iff_of_true
      · have agrees : PathsAgree [{ text := renderSections [], paths := [] }] [] :=
          agrees_whole.mpr ⟨by simp, by simp⟩
        exact agrees
      · refine ⟨?_, Or.inr (Or.inl ?_)⟩
        · intro part member
          cases member
        · intro part member
          cases member
  | cons part rest =>
      by_cases long : maxChars < (renderSections (part :: rest)).length
      · rw [chunkDiff_cut part rest long]
        have packed := packed_empty.foldl room (part :: rest)
        rw [List.nil_append] at packed
        rw [packed_agrees packed, and_iff_left (Or.inl long)]
      · have short := Nat.not_lt.mp long
        have nonempty : renderSections (part :: rest) ≠ [] := by
          apply List.ne_nil_of_length_pos
          rw [length_renderSections, total_cons]
          have filled := part.text_pos
          omega
        unfold chunkDiff
        rw [if_neg nonempty, if_pos short, whole_agrees, or_iff_right long]

theorem changed_worded :
    ∀ line ∈ ["index 587be6b..975fbec 100644".toList], '\n' ∉ line ∧
      startsWith "diff --git " line = false ∧ ∃ char ∈ line.head?, char.isAlpha = true := by
  intro line member
  rw [List.mem_singleton.mp member]
  exact ⟨by decide +kernel, by decide +kernel, 'i', rfl, rfl⟩

theorem removed_worded :
    ∀ line ∈ ["deleted file mode 100644".toList, "index 587be6b..0000000".toList],
      '\n' ∉ line ∧ startsWith "diff --git " line = false ∧
        ∃ char ∈ line.head?, char.isAlpha = true := by
  intro line member
  rcases List.mem_cons.mp member with rfl | later
  · exact ⟨by decide +kernel, by decide +kernel, 'd', rfl, rfl⟩
  · rw [List.mem_singleton.mp later]
    exact ⟨by decide +kernel, by decide +kernel, 'i', rfl, rfl⟩

/-- `a.c` is removed. -/
def removedFile : GitSection :=
  let path : SectionPath :=
    { chars := ['a', '.', 'c']
      nonempty := by decide
      plain := by simp [isLineBreak]
      unspaced := by decide
      relative := by decide }
  { oldPath := path
    newPath := path
    sides := .deleted
    extended := ["deleted file mode 100644".toList, "index 587be6b..0000000".toList]
    hunks := [['@', '@', ' ', '-', '1', ' ', '+', '0', ',', '0', ' ', '@', '@'], ['-', 'x']]
    samePath := fun _ => rfl
    worded := removed_worded
    marked := by simp
    onlyRemoved := by decide }

/-- A line of `b.c` is changed. -/
def changedFile : GitSection :=
  let path : SectionPath :=
    { chars := ['b', '.', 'c']
      nonempty := by decide
      plain := by simp [isLineBreak]
      unspaced := by decide
      relative := by decide }
  { oldPath := path
    newPath := path
    sides := .both
    extended := ["index 587be6b..975fbec 100644".toList]
    hunks := [['@', '@', ' ', '-', '1', ' ', '+', '1', ' ', '@', '@'], ['-', 'x'], ['+', 'y']]
    samePath := nofun
    worded := changed_worded
    marked := by simp
    onlyRemoved := nofun }

/-- Cut at its sections, the diff has the path of the removed file. -/
theorem chunk_paths_agree_cut :
    PathsAgree (chunkDiff (renderSections [removedFile, changedFile]) 120)
      [removedFile, changedFile] := by
  apply (chunk_paths_agree_iff [removedFile, changedFile] (by decide)).mpr
  refine ⟨?_, Or.inl (by decide +kernel)⟩
  unfold NoImitation
  decide +kernel

/-- In one chunk the removed file has no path: the only `+++ b/` line is that of the other
file. -/
theorem chunk_paths_miss_removed :
    ¬PathsAgree (chunkDiff (renderSections [removedFile, changedFile]) 70000)
      [removedFile, changedFile] := by
  intro agrees
  have unnamed : ∀ chunk ∈ chunkDiff (renderSections [removedFile, changedFile]) 70000,
      "a.c" ∉ chunk.paths := by
    decide +kernel
  have found := (agrees.same "a.c").mpr ⟨removedFile, List.mem_cons_self, rfl⟩
  obtain ⟨chunk, member, isPath⟩ := found
  exact unnamed chunk member isPath

end Chunking

end PeReview
